import Mathlib.Data.List.Nodup
import Typewright.Json.Table
import Typewright.Proofs.Fallible

/-!
# Members of objects

An object names each of its members once. Setting members keeps that, and reading a text gives only
values in which all objects are so.

- `Json.lookup_setMembers`: what is set comes before what was there.
- `Json.Table.members_putAll`: tables of members are put together as the members are set.
- `Json.Proper`: all objects in a value have members of different names.
- `Json.proper_of_parse`: that holds of every value that is read from a text.
-/

namespace Typewright.Json

variable {key : String} {ms others : List (String × Json)}

/-! ## Names of members -/

/-- The members have different names. -/
def Distinct (ms : List (String × Json)) : Prop :=
  (ms.map (·.1)).Nodup

instance (ms : List (String × Json)) : Decidable (Distinct ms) :=
  inferInstanceAs (Decidable (List.Nodup _))

theorem distinct_nil : Distinct [] :=
  List.nodup_nil

theorem distinct_cons {m : String × Json} : Distinct (m :: ms) ↔ m.1 ∉ ms.map (·.1) ∧ Distinct ms :=
  List.nodup_cons

theorem lookup_eq_none_iff : lookup key ms = none ↔ key ∉ ms.map (·.1) := by
  induction ms with
  | nil => simp [lookup]
  | cons m r ih =>
    obtain ⟨k, v⟩ := m
    by_cases h : k = key
    · simp [lookup, h]
    · simp [lookup, h, ih, Ne.symm h]

theorem mem_of_lookup {v : Json} (h : lookup key ms = some v) : (key, v) ∈ ms := by
  induction ms with
  | nil => cases h
  | cons m r ih =>
    obtain ⟨k, w⟩ := m
    rw [lookup] at h
    split_ifs at h with hk
    · obtain rfl := Option.some.inj h
      exact hk ▸ List.mem_cons_self
    · exact List.mem_cons_of_mem _ (ih h)

/-- A name that a test lets pass is looked up among the members that pass it. -/
theorem lookup_filter {p : String → Bool} (h : p key) :
    lookup key (ms.filter fun m => p m.1) = lookup key ms := by
  induction ms with
  | nil => rfl
  | cons m r ih =>
    obtain ⟨k, v⟩ := m
    by_cases hk : k = key
    · subst hk
      simp [h, lookup]
    · by_cases hp : p k
      · simp [hp, lookup, hk, ih]
      · simp [hp, lookup, hk, ih]

/-! ## Setting members -/

theorem map_fst_setMember (v : Json) :
    (setMember key v ms).map (·.1) =
      if key ∈ ms.map (·.1) then ms.map (·.1) else ms.map (·.1) ++ [key] := by
  induction ms with
  | nil => simp [setMember]
  | cons m r ih =>
    obtain ⟨k, w⟩ := m
    by_cases h : k = key
    · simp [setMember, h]
    · by_cases hm : key ∈ r.map (·.1)
      · simp only [hm, if_true] at ih
        simp [setMember, h, ih, hm]
      · simp only [hm, if_false] at ih
        simp [setMember, h, Ne.symm h, ih, hm]

theorem distinct_setMember (h : Distinct ms) (v : Json) : Distinct (setMember key v ms) := by
  unfold Distinct
  rw [map_fst_setMember]
  split_ifs with hk
  · exact h
  · exact List.Nodup.append h (List.nodup_singleton key) (List.disjoint_singleton.2 hk)

theorem setMembers_cons (m : String × Json) (r : List (String × Json)) :
    setMembers ms (m :: r) = setMembers (setMember m.1 m.2 ms) r :=
  rfl

theorem distinct_setMembers (h : Distinct ms) (others : List (String × Json)) :
    Distinct (setMembers ms others) := by
  induction others generalizing ms with
  | nil => exact h
  | cons m r ih => exact ih (distinct_setMember h m.2)

/-- What is set comes before what was there. -/
theorem lookup_setMembers (h : Distinct others) :
    lookup key (setMembers ms others) = (lookup key others).or (lookup key ms) := by
  induction others generalizing ms with
  | nil => simp [setMembers, lookup]
  | cons m r ih =>
    obtain ⟨k, v⟩ := m
    obtain ⟨hk, hr⟩ := distinct_cons.1 h
    rw [setMembers_cons, ih hr]
    by_cases heq : k = key
    · subst heq
      simp [lookup, lookup_eq_none_iff.2 hk]
    · simp [lookup, heq, lookup_setMember_of_ne (Ne.symm heq)]

theorem mem_of_mem_setMember {m : String × Json} {v : Json} (h : m ∈ setMember key v ms) :
    m ∈ ms ∨ m = (key, v) := by
  induction ms with
  | nil => exact .inr (List.mem_singleton.1 h)
  | cons n r ih =>
    rw [setMember] at h
    split_ifs at h with hk
    · rcases List.mem_cons.1 h with rfl | h
      · exact .inr (by rw [hk])
      · exact .inl (List.mem_cons_of_mem _ h)
    · rcases List.mem_cons.1 h with rfl | h
      · exact .inl List.mem_cons_self
      · exact (ih h).imp_left (List.mem_cons_of_mem _)

theorem mem_of_mem_setMembers {m : String × Json} (h : m ∈ setMembers ms others) :
    m ∈ ms ∨ m ∈ others := by
  induction others generalizing ms with
  | nil => exact .inl h
  | cons n r ih =>
    rcases ih h with hm | hr
    · rcases mem_of_mem_setMember hm with hm | rfl
      · exact .inl hm
      · exact .inr List.mem_cons_self
    · exact .inr (List.mem_cons_of_mem _ hr)

theorem setMember_of_notMem {v : Json} (h : key ∉ ms.map (·.1)) :
    setMember key v ms = ms ++ [(key, v)] := by
  induction ms with
  | nil => rfl
  | cons m r ih =>
    simp only [List.map_cons, List.mem_cons, not_or] at h
    rw [setMember, if_neg (Ne.symm h.1), ih h.2, List.cons_append]

theorem setMembers_eq_append (h : Distinct (ms ++ others)) :
    setMembers ms others = ms ++ others := by
  induction others generalizing ms with
  | nil => simp [setMembers]
  | cons m r ih =>
    have hm : m.1 ∉ ms.map (·.1) := by
      intro hmem
      unfold Distinct at h
      rw [List.map_append, List.map_cons] at h
      exact (List.disjoint_of_nodup_append h) hmem List.mem_cons_self
    have happ : ms ++ m :: r = (ms ++ [m]) ++ r := by simp
    rw [happ] at h ⊢
    rw [setMembers_cons, setMember_of_notMem hm]
    exact ih h

namespace Table

theorem put_ofMembers (m : String × Json) (ms : List (String × Json)) :
    put ⟨.text m.1, m.1, m.2⟩ (ofMembers ms) = ofMembers (setMember m.1 m.2 ms) := by
  induction ms with
  | nil => rfl
  | cons n r ih =>
    obtain ⟨k, w⟩ := n
    by_cases h : k = m.1
    · simp [ofMembers, put, setMember, h]
    · rw [setMember, if_neg h]
      simpa [ofMembers, put, h] using ih

theorem putAll_ofMembers (ms others : List (String × Json)) :
    putAll (ofMembers ms) (ofMembers others) = ofMembers (setMembers ms others) := by
  induction others generalizing ms with
  | nil => rfl
  | cons m r ih =>
    rw [setMembers_cons, ← ih, ← put_ofMembers]; rfl

/-- The object that a table of members makes has these members. -/
theorem members_ofMembers (h : Distinct ms) : members (ofMembers ms) = ms := by
  have hmap : (ofMembers ms).map (fun e => (e.name, e.value)) = ms := by
    simp [ofMembers, Function.comp_def]
  have happend : setMembers [] ms = [] ++ ms := setMembers_eq_append h
  rw [members, hmap, happend, List.nil_append]

/-- Tables of members are put together as the members are set. -/
theorem members_putAll (h : Distinct ms) (others : List (String × Json)) :
    members (putAll (ofMembers ms) (ofMembers others)) = setMembers ms others := by
  rw [putAll_ofMembers, members_ofMembers (distinct_setMembers h others)]

end Table

/-! ## Values in which no object names a member twice -/

/-- All objects in a value have members of different names. -/
inductive Proper : Json → Prop where
  | null : Proper .null
  | bool (b : Bool) : Proper (.bool b)
  | int (n : Int) : Proper (.int n)
  | real (x : Float) : Proper (.real x)
  | str (s : String) : Proper (.str s)
  | arr {xs : List Json} : (∀ x ∈ xs, Proper x) → Proper (.arr xs)
  | obj {ms : List (String × Json)} : Distinct ms → (∀ m ∈ ms, Proper m.2) → Proper (.obj ms)

theorem proper_of_number? {cs : List Char} {v : Json} {n : Nat}
    (h : number? cs = some (.ok v, n)) : Proper v := by
  unfold number? at h
  dsimp only at h
  split at h
  all_goals
    split at h
    · cases h
    split at h
    · cases h
      exact .real _
    split at h
    · cases h
      exact .real _
    split at h
    · cases h
    · cases h
      exact .int _

theorem proper_of_number {cs : List Char} {st : Step Json cs} (h : number cs = .ok st) :
    Proper st.value := by
  unfold number at h
  split at h
  · next v n hn =>
    split_ifs at h
    obtain rfl := Except.ok.inj h
    exact proper_of_number? hn
  · cases h
  · cases h

theorem proper_of_mem_words {w : List Char × Json} (h : w ∈ words) : Proper w.2 := by
  simp only [words, List.mem_cons, List.not_mem_nil, or_false] at h
  rcases h with rfl | rfl | rfl | rfl | rfl | rfl
  · exact .null
  · exact .bool true
  · exact .bool false
  all_goals exact .real _

theorem proper_of_atom {cs : List Char} {st : Step Json cs} (h : atom cs = .ok st) :
    Proper st.value := by
  unfold atom at h
  split at h
  · next w v hf =>
    split_ifs at h
    obtain rfl := Except.ok.inj h
    exact proper_of_mem_words (List.mem_of_find?_eq_some hf)
  · exact proper_of_number h

/-- What a value that opens a text is read from. -/
inductive ReadsFrom (cs : List Char) : Json → Prop
  | str (s : String) : ReadsFrom cs (.str s)
  | emptyArr : ReadsFrom cs (.arr [])
  | arr {depth : Nat} {r : List Char} {st : Step (List Json) r} (hr : r.length < cs.length)
      (h : items depth r = .ok st) : ReadsFrom cs (.arr st.value)
  | emptyObj : ReadsFrom cs (.obj [])
  | obj {depth : Nat} {r : List Char} {st : Step (List (String × Json)) r}
      (hr : r.length < cs.length) (h : members depth r = .ok st) :
      ReadsFrom cs (.obj (setMembers [] st.value))
  | atom {st : Step Json cs} (h : atom cs = .ok st) : ReadsFrom cs st.value

theorem readsFrom_of_value {depth : Nat} {cs : List Char} {st : Step Json cs}
    (h : value depth cs = .ok st) : ReadsFrom cs st.value := by
  have hlt : ∀ (c : Char) r, (skipSpace r).length < (c :: r).length := fun c r =>
    Nat.lt_succ_of_le (length_skipSpace_le r)
  -- the first character decides, and whether brackets are closed at once
  unfold value at h
  split at h
  · obtain ⟨⟨s, rest, hs⟩, -, h⟩ := Fallible.bind_ok h
    obtain rfl := Except.ok.inj h
    exact .str s
  · cases h
  · split at h
    · obtain rfl := Except.ok.inj h
      exact .emptyArr
    · obtain ⟨⟨xs, rest, hs⟩, hx, h⟩ := Fallible.bind_ok h
      obtain rfl := Except.ok.inj h
      exact .arr (hlt _ _) hx
  · cases h
  · split at h
    · obtain rfl := Except.ok.inj h
      exact .emptyObj
    · obtain ⟨⟨ms, rest, hs⟩, hm, h⟩ := Fallible.bind_ok h
      obtain rfl := Except.ok.inj h
      exact .obj (hlt _ _) hm
  · exact .atom h

/-- The items of an array are a value, and after a comma the items of a shorter text. -/
theorem items_ok {depth : Nat} {cs : List Char} {st : Step (List Json) cs}
    (h : items depth cs = .ok st) :
    ∃ v : Step Json cs, value depth cs = .ok v ∧
      (st.value = [v.value] ∨
        ∃ r, ∃ more : Step (List Json) r, r.length < cs.length ∧ items depth r = .ok more ∧
          st.value = v.value :: more.value) := by
  rw [items] at h
  obtain ⟨⟨v, rest, hrest⟩, hv, h⟩ := Fallible.bind_ok h
  refine ⟨_, hv, ?_⟩
  dsimp only at h
  split at h
  · obtain rfl := Except.ok.inj h
    exact .inl rfl
  · next r hs =>
    obtain ⟨⟨vs, rest', hvs⟩, hi, h⟩ := Fallible.bind_ok h
    obtain rfl := Except.ok.inj h
    refine .inr ⟨_, _, ?_, hi, rfl⟩
    have hlen := congrArg List.length hs
    have hskip := length_skipSpace_le rest
    have hskip' := length_skipSpace_le r
    simp only [List.length_cons] at hlen
    omega
  · cases h

/-- The members of an object are a key with a value, and after a comma those of a shorter text. -/
theorem members_ok {depth : Nat} {cs : List Char} {st : Step (List (String × Json)) cs}
    (h : members depth cs = .ok st) :
    ∃ key r, ∃ v : Step Json r, r.length < cs.length ∧ value depth r = .ok v ∧
      (st.value = [(key, v.value)] ∨
        ∃ r', ∃ more : Step (List (String × Json)) r', r'.length < cs.length ∧
          members depth r' = .ok more ∧ st.value = (key, v.value) :: more.value) := by
  unfold members at h
  split at h
  swap
  · cases h
  obtain ⟨⟨key, rest, hrest⟩, -, h⟩ := Fallible.bind_ok h
  dsimp only at h
  split at h
  swap
  · cases h
  next q r hs =>
  obtain ⟨⟨v, rest', hrest'⟩, hv, h⟩ := Fallible.bind_ok h
  -- what is left gets shorter: the colon comes off, and skipping blanks adds nothing
  have hlen := congrArg List.length hs
  have hskip := length_skipSpace_le rest
  have hskip' := length_skipSpace_le r
  simp only [List.length_cons] at hlen hrest
  refine ⟨key, _, _, by simp only [List.length_cons]; omega, hv, ?_⟩
  dsimp only at h
  split at h
  · obtain rfl := Except.ok.inj h
    exact .inl rfl
  · next r' hs' =>
    obtain ⟨⟨ms, rest'', hms⟩, hm, h⟩ := Fallible.bind_ok h
    obtain rfl := Except.ok.inj h
    refine .inr ⟨_, _, ?_, hm, rfl⟩
    have hlen' := congrArg List.length hs'
    have hafter := length_skipSpace_le rest'
    have hafter' := length_skipSpace_le r'
    simp only [List.length_cons] at hlen' ⊢
    omega
  · cases h

/-- The values in texts of at most some length are proper. -/
def ProperUpTo (n : Nat) : Prop :=
  ∀ depth cs, cs.length ≤ n → ∀ st : Step Json cs, value depth cs = .ok st → Proper st.value

theorem proper_of_items {n : Nat} (hv : ProperUpTo n) {depth : Nat} {cs : List Char}
    (hn : cs.length ≤ n) {st : Step (List Json) cs} (h : items depth cs = .ok st) :
    ∀ x ∈ st.value, Proper x := by
  induction hlen : cs.length using Nat.strongRecOn generalizing cs with
  | _ k ih =>
    obtain ⟨v, hval, hst | ⟨r, more, hr, hmore, hst⟩⟩ := items_ok h
    · rw [hst]
      exact List.forall_mem_singleton.2 (hv depth cs hn v hval)
    · rw [hst]
      exact List.forall_mem_cons.2 ⟨hv depth cs hn v hval,
        ih _ (hlen ▸ hr) (Nat.le_trans (Nat.le_of_lt hr) hn) hmore rfl⟩

theorem proper_of_members {n : Nat} (hv : ProperUpTo n) {depth : Nat} {cs : List Char}
    (hn : cs.length ≤ n) {st : Step (List (String × Json)) cs} (h : members depth cs = .ok st) :
    ∀ m ∈ st.value, Proper m.2 := by
  induction hlen : cs.length using Nat.strongRecOn generalizing cs with
  | _ k ih =>
    obtain ⟨key, r, v, hr, hval, hst | ⟨r', more, hr', hmore, hst⟩⟩ := members_ok h
    · rw [hst]
      exact List.forall_mem_singleton.2 (hv depth r (Nat.le_trans (Nat.le_of_lt hr) hn) v hval)
    · rw [hst]
      exact List.forall_mem_cons.2 ⟨hv depth r (Nat.le_trans (Nat.le_of_lt hr) hn) v hval,
        ih _ (hlen ▸ hr') (Nat.le_trans (Nat.le_of_lt hr') hn) hmore rfl⟩

theorem proper_of_value (n : Nat) : ProperUpTo n := by
  -- the parts of a value stand in a shorter text than the value
  induction n using Nat.strongRecOn with
  | _ n ih =>
    intro depth cs hn st h
    have hshorter : ∀ r : List Char, r.length < cs.length → ProperUpTo r.length := fun r hr =>
      ih r.length (by omega)
    generalize st.value = j, readsFrom_of_value h = hj at *
    cases hj with
    | str s => exact .str s
    | emptyArr => exact .arr (by simp)
    | arr hr hi => exact .arr (proper_of_items (hshorter _ hr) (Nat.le_refl _) hi)
    | emptyObj => exact .obj distinct_nil (by simp)
    | obj hr hm =>
      refine .obj (distinct_setMembers distinct_nil _) fun m hmem => ?_
      rcases mem_of_mem_setMembers hmem with hmem | hmem
      · cases hmem
      · exact proper_of_members (hshorter _ hr) (Nat.le_refl _) hm m hmem
    | atom ha => exact proper_of_atom ha

/-- Every value that a text holds is proper. -/
theorem proper_of_parse {depth : Nat} {s : String} {j : Json} (h : parse depth s = .ok j) :
    Proper j := by
  have h := Fallible.mapError_ok h
  unfold parseChars at h
  split at h
  · cases h
  · obtain ⟨st, hv, h⟩ := Fallible.bind_ok h
    dsimp only at h
    split at h
    · obtain rfl := Except.ok.inj h
      exact proper_of_value _ _ _ (Nat.le_refl _) _ hv
    · cases h

end Typewright.Json
