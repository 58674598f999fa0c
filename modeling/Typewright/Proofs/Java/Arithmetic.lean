import Mathlib.Tactic.SplitIfs
import Typewright.Proofs.Identifier

/-!
# Sums and products in source text

How an expression of numbers, method calls, `+`, `*` and parentheses is read. Text is cut into
tokens, and a grammar says which tokens are which expression: `*` binds tighter than `+`, both group
to the left, and a method call is one operand, whatever it is called on and with. Tokens have at
most one reading.

- `tokens`: the tokens of a text; `tokens_append_of_head`, `tokens_append_of_last` where it can be
  cut.
- `Arithmetic`: expressions; `Arithmetic.value` what they come to, modulo `2 ^ 32`.
- `Reads`: the grammar.
- `Parser.scan_of_reads`: an automaton that reads the tokens from left to right finds each reading.
- `Reads.unique`: there is no other one.
-/

namespace Typewright.Java

/-! ## Tokens -/

/-- A token of source text. -/
inductive Token where
  /-- Letters, digits, `_` and `$` in a row. -/
  | word (cs : List Char)
  /-- Any other character, unless it is white space. -/
  | mark (c : Char)
  deriving DecidableEq

/-- The characters of a token. -/
def Token.chars : Token → List Char
  | .word cs => cs
  | .mark c => [c]

def isSpace (c : Char) : Bool :=
  c == ' ' || c == '\t' || c == '\n' || c == '\x0c' || c == '\r'

/-- The token that a word is, if it has characters. -/
def wordTokens (word : List Char) : List Token :=
  if word.isEmpty then [] else [.word word]

/-- The token that a character is which stands in no word. -/
def markTokens (c : Char) : List Token :=
  if isSpace c then [] else [.mark c]

def tokensAfter (word : List Char) : List Char → List Token
  | [] => wordTokens word
  | c :: r =>
    if Identifier.isPart c then tokensAfter (word ++ [c]) r
    else wordTokens word ++ (markTokens c ++ tokensAfter [] r)

def tokens (s : String) : List Token :=
  tokensAfter [] s.toList

variable {word cs r : List Char} {c : Char} {s t : String} {ts us : List Token}

theorem tokensAfter_of_forall (h : ∀ c ∈ cs, Identifier.isPart c) (word : List Char) :
    tokensAfter word cs = wordTokens (word ++ cs) := by
  induction cs generalizing word with
  | nil => rw [tokensAfter, List.append_nil]
  | cons c r ih =>
    obtain ⟨hc, hr⟩ := List.forall_mem_cons.1 h
    rw [tokensAfter, if_pos hc, ih hr, List.append_assoc, List.singleton_append]

theorem tokensAfter_append_cons (hc : Identifier.isPart c = false) (word cs r : List Char) :
    tokensAfter word (cs ++ c :: r) = tokensAfter word cs ++ tokensAfter [] (c :: r) := by
  induction cs generalizing word with
  | nil => simp [tokensAfter, hc, wordTokens]
  | cons d cs ih =>
    rw [List.cons_append, tokensAfter, tokensAfter, ih, ih]
    split_ifs <;> simp only [List.append_assoc]

theorem tokensAfter_append_singleton (hc : Identifier.isPart c = false) (word cs r : List Char) :
    tokensAfter word (cs ++ [c] ++ r) = tokensAfter word (cs ++ [c]) ++ tokensAfter [] r := by
  rw [List.append_assoc, List.singleton_append, tokensAfter_append_cons hc,
    tokensAfter_append_cons hc]
  simp [tokensAfter, hc, wordTokens]

/-- A text may be cut before a character that stands in no word. -/
theorem tokens_append_of_head (h : t.toList.head? = some c) (hc : Identifier.isPart c = false)
    (s : String) : tokens (s ++ t) = tokens s ++ tokens t := by
  obtain ⟨r, hr⟩ := List.head?_eq_some_iff.1 h
  rw [tokens, String.toList_append, hr, tokensAfter_append_cons hc, ← hr]; rfl

/-- A text may be cut after a character that stands in no word. -/
theorem tokens_append_of_last (h : s.toList.getLast? = some c) (hc : Identifier.isPart c = false)
    (t : String) : tokens (s ++ t) = tokens s ++ tokens t := by
  obtain ⟨r, hr⟩ := List.getLast?_eq_some_iff.1 h
  rw [tokens, String.toList_append, hr, tokensAfter_append_singleton hc, ← hr]; rfl

def spelling (ts : List Token) : String :=
  .ofList (ts.flatMap Token.chars)

/-! ## Expressions -/

/-- An expression of numbers, method calls, sums and products. -/
inductive Arithmetic where
  /-- A number by its decimal digits. -/
  | number (digits : List Char)
  /-- A method call by its tokens. -/
  | call (ts : List Token)
  | add (a b : Arithmetic)
  | mul (a b : Arithmetic)
  deriving DecidableEq

/-- The number that decimal digits denote. -/
def decimal (digits : List Char) : Nat :=
  digits.foldl (fun n c => 10 * n + (c.toNat - '0'.toNat)) 0

namespace Arithmetic

/-- The value of an expression, where each method call has the value that its text is given. -/
def value (h : String → BitVec 32) : Arithmetic → BitVec 32
  | number digits => .ofNat 32 (decimal digits)
  | call ts => h (spelling ts)
  | add a b => a.value h + b.value h
  | mul a b => a.value h * b.value h

/-- The method calls of an expression, from left to right. -/
def calls : Arithmetic → List String
  | number _ => []
  | call ts => [spelling ts]
  | add a b => a.calls ++ b.calls
  | mul a b => a.calls ++ b.calls

end Arithmetic

/-! ## The grammar -/

/-- Whether characters are decimal digits, the first of which is not zero. -/
def isNumeral : List Char → Bool
  | [] => false
  | c :: r => c.isDigit && c != '0' && r.all Char.isDigit

/-- Names with points between them. -/
inductive IsPath : List Token → Prop where
  | name {cs : List Char} : Identifier.isWord cs → IsPath [.word cs]
  | member {cs : List Char} {ts : List Token} :
    Identifier.isWord cs → IsPath ts → IsPath (.word cs :: .mark '.' :: ts)

/-- Tokens among which every parenthesis has its counterpart. -/
inductive IsBalanced : List Token → Prop where
  | nil : IsBalanced []
  | token {t : Token} {ts : List Token} :
    t ≠ .mark '(' → t ≠ .mark ')' → IsBalanced ts → IsBalanced (t :: ts)
  | group {ts us : List Token} :
    IsBalanced ts → IsBalanced us → IsBalanced (.mark '(' :: (ts ++ .mark ')' :: us))

/-- A method call: by its name, or on what another call returns. -/
inductive IsCall : List Token → Prop where
  | named {ts us : List Token} :
    IsPath ts → IsBalanced us → IsCall (ts ++ .mark '(' :: (us ++ [.mark ')']))
  | onResult {ts us vs : List Token} :
    IsCall ts → IsPath us → IsBalanced vs →
      IsCall (ts ++ .mark '.' :: (us ++ .mark '(' :: (vs ++ [.mark ')'])))

/-- How tightly an expression is bound. -/
inductive Rank where
  | operand
  | product
  | sum
  deriving DecidableEq

/-- Tokens that are read as an expression of a rank. -/
inductive Reads : Rank → List Token → Arithmetic → Prop where
  | number {cs : List Char} : isNumeral cs → Reads .operand [.word cs] (.number cs)
  | call {ts : List Token} : IsCall ts → Reads .operand ts (.call ts)
  | group {ts : List Token} {e : Arithmetic} :
    Reads .sum ts e → Reads .operand (.mark '(' :: (ts ++ [.mark ')'])) e
  | product {ts : List Token} {e : Arithmetic} : Reads .operand ts e → Reads .product ts e
  | mul {ts us : List Token} {a b : Arithmetic} :
    Reads .product ts a → Reads .operand us b → Reads .product (ts ++ .mark '*' :: us) (.mul a b)
  | sum {ts : List Token} {e : Arithmetic} : Reads .product ts e → Reads .sum ts e
  | add {ts us : List Token} {a b : Arithmetic} :
    Reads .sum ts a → Reads .product us b → Reads .sum (ts ++ .mark '+' :: us) (.add a b)

/-! ## Reading from left to right -/

namespace Parser

/-- What is open to the left of an operand. -/
inductive Context where
  | start
  /-- An expression to add it to. -/
  | addend (k : Context) (a : Arithmetic)
  /-- An expression to multiply it with. -/
  | factor (k : Context) (a : Arithmetic)
  /-- A parenthesis. -/
  | group (k : Context)

/-- What has been read of an expression. -/
inductive State where
  /-- An operand comes next. -/
  | before (k : Context)
  /-- An operand has been read. -/
  | after (k : Context) (e : Arithmetic)
  /-- Tokens of a method call have been read, within so many parentheses. -/
  | within (k : Context) (ts : List Token) (depth : Nat)

def Context.product : Context → Arithmetic → Context × Arithmetic
  | .factor k a, e => (k, .mul a e)
  | k, e => (k, e)

def Context.sum (k : Context) (e : Arithmetic) : Context × Arithmetic :=
  match k.product e with
  | (.addend k a, e) => (k, .add a e)
  | (k, e) => (k, e)

/-- The state after the token that follows an operand. -/
def proceed (k : Context) (e : Arithmetic) : Token → Option State
  | .mark '*' => some (.before (.factor (k.product e).1 (k.product e).2))
  | .mark '+' => some (.before (.addend (k.sum e).1 (k.sum e).2))
  | .mark ')' =>
    match k.sum e with
    | (.group k, e) => some (.after k e)
    | _ => none
  | _ => none

/-- The state after one more token. -/
def step : State → Token → Option State
  | .before k, .mark '(' => some (.before (.group k))
  | .before k, .word cs =>
    some (if isNumeral cs then .after k (.number cs) else .within k [.word cs] 0)
  | .before _, _ => none
  | .after k e, t => proceed k e t
  | .within k ts 0, .word cs => some (.within k (ts ++ [.word cs]) 0)
  | .within k ts 0, .mark '.' => some (.within k (ts ++ [.mark '.']) 0)
  | .within k ts 0, .mark '(' => some (.within k (ts ++ [.mark '(']) 1)
  | .within k ts 0, t => proceed k (.call ts) t
  | .within k ts (n + 1), .mark '(' => some (.within k (ts ++ [.mark '(']) (n + 2))
  | .within k ts (n + 1), .mark ')' => some (.within k (ts ++ [.mark ')']) n)
  | .within k ts (n + 1), t => some (.within k (ts ++ [t]) (n + 1))

/-- The state after several tokens. -/
def scan (s : State) (ts : List Token) : Option State :=
  ts.foldlM step s

/-- The context and the operand of a state in which an operand may end. -/
def State.operand? : State → Option (Context × Arithmetic)
  | .after k e => some (k, e)
  | .within k ts 0 => some (k, .call ts)
  | _ => none

/-- The expression that has been read when the tokens are over. -/
def State.result? (s : State) : Option Arithmetic := do
  let (k, e) ← s.operand?
  match k.sum e with
  | (.start, e) => some e
  | _ => none

variable {k k' : Context} {e e' : Arithmetic} {s : State} {n : Nat}

theorem scan_append (s : State) (ts us : List Token) :
    scan s (ts ++ us) = (scan s ts).bind (scan · us) :=
  List.foldlM_append

theorem scan_cons (s : State) (t : Token) (ts : List Token) :
    scan s (t :: ts) = (step s t).bind (scan · ts) :=
  List.foldlM_cons

theorem scan_append_of_eq {s' : State} (h : scan s ts = some s') (us : List Token) :
    scan s (ts ++ us) = scan s' us := by
  rw [scan_append, h, Option.bind_some]

/-- Where an operand ends, the next token is read as one that follows it. -/
theorem step_of_operand? (h : s.operand? = some (k, e)) {t : Token} {s' : State}
    (ht : proceed k e t = some s') : step s t = some s' := by
  cases s with
  | before k => cases h
  | after k e => obtain ⟨rfl, rfl⟩ := Prod.mk.inj (Option.some.inj h); exact ht
  | within k ts depth =>
    cases depth with
    | succ n => cases h
    | zero =>
      obtain ⟨rfl, rfl⟩ := Prod.mk.inj (Option.some.inj h)
      -- what follows an operand does not continue a call
      unfold proceed at ht
      split at ht
      · exact ht
      · exact ht
      · exact ht
      · cases ht

/-- The expression of a rank that an operand completes, and what is open to the left of it. -/
def complete : Rank → Context → Arithmetic → Context × Arithmetic
  | .operand, k, e => (k, e)
  | .product, k, e => k.product e
  | .sum, k, e => k.sum e

/-- Whether an expression of a rank may start in a context. -/
def Accepts : Rank → Context → Prop
  | .operand, _ => True
  | .product, .factor _ _ => False
  | .product, _ => True
  | .sum, .start => True
  | .sum, .group _ => True
  | .sum, _ => False

theorem Accepts.product (h : Accepts .sum k) : Accepts .product k := by
  cases k with
  | start => trivial
  | addend k a => trivial
  | factor k a => exact h
  | group k => trivial

/-- An expression of the rank that a context accepts is complete with its first operand. -/
theorem product_of_accepts (h : Accepts .product k) (e : Arithmetic) : k.product e = (k, e) := by
  cases k with
  | start => rfl
  | addend k a => rfl
  | factor k a => exact h.elim
  | group k => rfl

theorem sum_of_product (h : Accepts .sum k) (hp : k'.product e' = (k, e)) : k'.sum e' = (k, e) := by
  rw [Context.sum, hp]
  cases k with
  | start => rfl
  | addend k a => exact h.elim
  | factor k a => exact h.elim
  | group k => rfl

theorem sum_of_addend {a : Arithmetic} (hp : k'.product e' = (.addend k a, e)) :
    k'.sum e' = (k, .add a e) := by
  rw [Context.sum, hp]

/-! ### Calls -/

theorem isNumeral_of_isWord {cs : List Char} (h : Identifier.isWord cs) : isNumeral cs = false := by
  cases cs with
  | nil => rfl
  | cons c r =>
    rw [Identifier.isWord, Bool.and_eq_true] at h
    rw [isNumeral, Identifier.isDigit_of_isStart h.1]; rfl

theorem scan_path (h : IsPath ts) (k : Context) (read : List Token) :
    scan (.within k read 0) ts = some (.within k (read ++ ts) 0) := by
  induction h generalizing read with
  | name hw => rfl
  | @member cs ts hw _ ih =>
    have hstep : scan (.within k read 0) (.word cs :: .mark '.' :: ts) =
        scan (.within k (read ++ [.word cs] ++ [.mark '.']) 0) ts := rfl
    rw [hstep, ih, List.append_assoc, List.append_assoc]; rfl

theorem scan_path_before (h : IsPath ts) (k : Context) :
    scan (.before k) ts = some (.within k ts 0) := by
  have hstep {cs : List Char} (hw : Identifier.isWord cs) :
      step (.before k) (.word cs) = some (.within k [.word cs] 0) := by
    rw [step, isNumeral_of_isWord hw]; rfl
  cases h with
  | name hw => rw [scan_cons, hstep hw]; rfl
  | @member cs ts hw hr =>
    rw [scan_cons, hstep hw]
    exact scan_path hr k [.word cs, .mark '.']

theorem scan_balanced (h : IsBalanced ts) (k : Context) (read : List Token) (n : Nat) :
    scan (.within k read (n + 1)) ts = some (.within k (read ++ ts) (n + 1)) := by
  induction h generalizing read n with
  | nil => rw [List.append_nil]; rfl
  | @token t ts hopen hclose _ ih =>
    have hstep : step (.within k read (n + 1)) t = some (.within k (read ++ [t]) (n + 1)) := by
      unfold step
      split <;> simp_all
    rw [scan_cons, hstep, Option.bind_some, ih, List.append_assoc, List.singleton_append]
  | @group ts us _ _ iht ihu =>
    have hopen : step (.within k read (n + 1)) (.mark '(') =
        some (.within k (read ++ [.mark '(']) (n + 2)) := rfl
    have hclose (read : List Token) : step (.within k read (n + 2)) (.mark ')') =
        some (.within k (read ++ [.mark ')']) (n + 1)) := rfl
    rw [scan_cons, hopen, Option.bind_some, scan_append_of_eq (iht _ _), scan_cons, hclose,
      Option.bind_some, ihu]
    simp

theorem scan_arguments (h : IsBalanced ts) (k : Context) (read : List Token) :
    scan (.within k read 0) (.mark '(' :: (ts ++ [.mark ')'])) =
      some (.within k (read ++ .mark '(' :: (ts ++ [.mark ')'])) 0) := by
  have hopen : step (.within k read 0) (.mark '(') =
      some (.within k (read ++ [.mark '(']) 1) := rfl
  rw [scan_cons, hopen, Option.bind_some, scan_append_of_eq (scan_balanced h k _ 0)]
  simp [scan, step]

theorem scan_call (h : IsCall ts) (k : Context) :
    scan (.before k) ts = some (.within k ts 0) := by
  induction h with
  | named hp hb => rw [scan_append_of_eq (scan_path_before hp k), scan_arguments hb]
  | @onResult ts us vs _ hp hb ih =>
    have hpoint : step (.within k ts 0) (.mark '.') = some (.within k (ts ++ [.mark '.']) 0) := rfl
    rw [scan_append_of_eq ih, scan_cons, hpoint, Option.bind_some,
      scan_append_of_eq (scan_path hp k _), scan_arguments hb]
    simp

/-! ### Expressions -/

/--
Tokens that are read as an expression are scanned to a state where their last operand has been read,
which completes that expression.
-/
theorem scan_of_reads {rank : Rank} (h : Reads rank ts e) (hk : Accepts rank k) :
    ∃ s k' e', scan (.before k) ts = some s ∧ s.operand? = some (k', e') ∧
      complete rank k' e' = (k, e) := by
  -- the induction is on the reading; what is open around the tokens goes with it
  induction h generalizing k with
  | @number cs hn =>
    refine ⟨.after k (.number cs), k, .number cs, ?_, rfl, rfl⟩
    simp [scan, step, hn]
  | @call ts hc => exact ⟨.within k ts 0, k, .call ts, scan_call hc k, rfl, rfl⟩
  | @group ts e _ ih =>
    obtain ⟨s, k', e', hs, ho, he⟩ := ih (k := .group k) trivial
    have hopen : step (.before k) (.mark '(') = some (.before (.group k)) := rfl
    have hclose : proceed k' e' (.mark ')') = some (.after k e) := by
      rw [complete] at he
      rw [proceed, he]
    refine ⟨.after k e, k, e, ?_, rfl, rfl⟩
    rw [scan_cons, hopen, Option.bind_some, scan_append_of_eq hs]
    simp [scan, step_of_operand? ho hclose]
  -- a product as it stands is a sum: nothing more is scanned, only completed
  | product _ ih =>
    obtain ⟨s, k', e', hs, ho, he⟩ := ih trivial
    obtain ⟨rfl, rfl⟩ := Prod.mk.inj he
    exact ⟨s, _, _, hs, ho, product_of_accepts hk _⟩
  | @mul ts us a b _ _ iha ihb =>
    obtain ⟨s, k', e', hs, ho, he⟩ := iha hk
    obtain ⟨s', k'', e'', hs', ho', he'⟩ := ihb (k := .factor k a) trivial
    obtain ⟨rfl, rfl⟩ := Prod.mk.inj he'
    have hstep : proceed k' e' (.mark '*') = some (.before (.factor k a)) := by
      rw [complete] at he
      rw [proceed, he]
    refine ⟨s', _, _, ?_, ho', rfl⟩
    rw [scan_append_of_eq hs, scan_cons, step_of_operand? ho hstep, Option.bind_some, hs']
  | sum _ ih =>
    obtain ⟨s, k', e', hs, ho, he⟩ := ih hk.product
    exact ⟨s, k', e', hs, ho, sum_of_product hk he⟩
  | @add ts us a b _ _ iha ihb =>
    obtain ⟨s, k', e', hs, ho, he⟩ := iha hk
    obtain ⟨s', k'', e'', hs', ho', he'⟩ := ihb (k := .addend k a) trivial
    have hstep : proceed k' e' (.mark '+') = some (.before (.addend k a)) := by
      rw [complete] at he
      rw [proceed, he]
    refine ⟨s', k'', e'', ?_, ho', sum_of_addend he'⟩
    rw [scan_append_of_eq hs, scan_cons, step_of_operand? ho hstep, Option.bind_some, hs']

end Parser

/-- Tokens have at most one reading. -/
theorem Reads.unique {e e' : Arithmetic} (h : Reads .sum ts e) (h' : Reads .sum ts e') :
    e = e' := by
  have hresult {e : Arithmetic} (h : Reads .sum ts e) :
      (Parser.scan (.before .start) ts).bind Parser.State.result? = some e := by
    obtain ⟨s, k, a, hs, ho, he⟩ := Parser.scan_of_reads h (k := .start) trivial
    rw [Parser.complete] at he
    simp [hs, Parser.State.result?, ho, he]
  exact Option.some.inj ((hresult h).symm.trans (hresult h'))

end Typewright.Java
