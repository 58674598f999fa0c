import Typewright.Text.CodePoint

/-!
# Repeated texts

A text repeated a number of times, which may be negative and then gives the empty text. A count that
fills more than a word, and a text that fills more than memory, are refused. How long a text memory
holds is not fixed here: it is a parameter.

- `Memory`: how long a text can be.
- `repeated`: a text repeated, or why it cannot be.
-/

namespace Typewright.Text

/-- The least number that does not fit into a signed word of 64 bits. -/
def wordLimit : Nat :=
  9223372036854775808

/-- A memory, by the length of the longest text that it holds, in code points. -/
structure Memory where
  capacity : Nat
  capacity_lt : capacity < wordLimit
  deriving DecidableEq

/-- The memory that holds every text whose length fits into a word. -/
def Memory.ample : Memory :=
  ⟨wordLimit - 1, by decide⟩

/-- Why a text cannot be repeated. -/
inductive RepeatFault where
  /-- The count does not fit into a word. -/
  | countTooLarge
  /-- The length of the outcome does not fit into a word. -/
  | outcomeTooLong
  /-- The outcome does not fit into memory. -/
  | outOfMemory
  deriving DecidableEq

def RepeatFault.message : RepeatFault → String
  | .countTooLarge => "cannot fit 'int' into an index-sized integer"
  | .outcomeTooLong => "repeated string is too long"
  | .outOfMemory => ""

def times (s : String) (n : Nat) : String :=
  if s = "" then "" else String.join (List.replicate n s)

/-- A text repeated, unless the count or the outcome is too large. -/
def repeated (m : Memory) (s : String) (n : Int) : Except RepeatFault String :=
  if n < -wordLimit || (wordLimit : Int) ≤ n then .error .countTooLarge
  else if wordLimit ≤ codeCount s * n.toNat then .error .outcomeTooLong
  else if m.capacity < codeCount s * n.toNat then .error .outOfMemory
  else .ok (times s n.toNat)

/-! ## Small laws -/

theorem times_zero (s : String) : times s 0 = "" := by
  simp [times, String.join]

theorem toList_times (s : String) (n : Nat) :
    (times s n).toList = (List.replicate n s.toList).flatten := by
  rw [times]
  split
  · next h => simp [h]
  · rw [String.toList_join, List.flatMap_replicate]

/-- A text of a size that memory holds is repeated. -/
theorem repeated_of_le {m : Memory} {s : String} {n : Nat} (hn : n < wordLimit)
    (h : codeCount s * n ≤ m.capacity) : repeated m s n = .ok (times s n) := by
  have hm := m.capacity_lt
  have hc : ¬((n : Int) < -wordLimit || (wordLimit : Int) ≤ n) := by
    rw [Bool.or_eq_true, decide_eq_true_iff, decide_eq_true_iff]
    omega
  rw [repeated, if_neg hc, Int.toNat_natCast, if_neg (by omega), if_neg (by omega)]

/-- What is repeated is the text so many times in a row. -/
theorem repeated_ok {m : Memory} {s t : String} {n : Int} (h : repeated m s n = .ok t) :
    t = times s n.toNat := by
  unfold repeated at h
  split at h
  · cases h
  split at h
  · cases h
  split at h
  · cases h
  · exact (Except.ok.inj h).symm

end Typewright.Text
