import Typewright.Java.Structural
import Typewright.Proofs.Java.Arithmetic
import Typewright.Proofs.Java.Construction

/-!
# The hash code as a fold

The expression for a hash code wraps the one before it in a product, and puts no parentheses around
it where it is an addend. It is read as it is meant all the same: as the fold of the hashes of the
fields from 17 on, each added to what there is, and the sum multiplied by 37.

- `tokens_of_isIdentifier`: a name is one token.
- `readsCall_fieldHash`: the hash of a field is a method call.
- `reads_mixed`, `reads_foldl`: what one more field, and what several, make of an expression.
- `hashCodeBody_folds`: what the body of `hashCode` returns.
-/

namespace Typewright.Java

variable {s t p : String} {f : Field} {fs : List Field}

/-! ## Names -/

theorem tokens_of_isName (h : IsName s) : tokens s = [.word s.toList] := by
  have hne : s.toList.isEmpty = false := by
    obtain ⟨c, r, hs, -⟩ := h.exists_cons
    rw [hs]; rfl
  rw [tokens, tokensAfter_of_forall (Identifier.isPart_of_isWord h), List.nil_append, wordTokens,
    hne]
  rfl

/-- A name is one token, without the line feed that it may end with. -/
theorem tokens_of_isIdentifier (h : isIdentifier s) :
    tokens s = [.word (identifierOf s).toList] := by
  rw [← tokens_of_isName (isName_identifierOf h)]
  rcases eq_identifierOf_or s with hs | hs
  · rw [← hs]
  · have hcut := tokens_append_of_head (t := "\n") (c := '\n') rfl (by decide) (identifierOf s)
    rw [← hs] at hcut
    exact hcut.trans (List.append_nil _)

theorem spelling_append (ts us : List Token) :
    spelling (ts ++ us) = spelling ts ++ spelling us := by
  rw [spelling, List.flatMap_append, String.ofList_append]; rfl

theorem spelling_word (s : String) : spelling [.word s.toList] = s := by
  rw [spelling, List.flatMap_singleton, Token.chars, String.ofList_toList]

/-! ## The hash of a field -/

/-- The text of the hash of a field, its name without a line feed at the end. -/
def hashCall (f : Field) : String :=
  (fieldHash { f with name := fieldName f }).text

/-- For a field whose name does not end in a line feed, that is the text in the body. -/
theorem hashCall_of_isName (h : IsName f.name) : hashCall f = (fieldHash f).text := by
  rw [hashCall, fieldName, identifierOf_of_noBreak h.noBreak]

theorem isName_box (h : isPrimitive s) : IsName (box s) := by
  have hall : ∀ m ∈ primitives, IsName m.2 := by decide
  obtain ⟨b, hb⟩ := Option.isSome_iff_exists.1 h
  obtain ⟨before, after, hsplit, -⟩ := List.lookup_eq_some_iff.1 hb
  rw [box, hb]
  exact hall (s, b) (by rw [hsplit]; simp)

/-- A text that is read as a method call, which is spelled in a certain way. -/
structure ReadsCall (text call : String) : Prop where
  isCall : IsCall (tokens text)
  spelled : spelling (tokens text) = call

/-- A text that names a method of a class. -/
structure ReadsPath (text : String) : Prop where
  isPath : IsPath (tokens text)
  spelled : spelling (tokens text) = text

theorem readsPath_arraysMethod (h : IsName s) : ReadsPath (arraysMethod s) := by
  have hts : tokens (arraysMethod s) = tokens "java.util.Arrays." ++ tokens s :=
    tokens_append_of_last (c := '.') rfl (by decide) s
  rw [tokens_of_isName h] at hts
  constructor
  · rw [hts]
    exact .member rfl (.member rfl (.member rfl (.name h)))
  · rw [hts, spelling_append, spelling_word]; rfl

theorem readsPath_valueOf (h : isPrimitive s) : ReadsPath (box s ++ ".valueOf") := by
  have hts : tokens (box s ++ ".valueOf") = [.word (box s).toList] ++ tokens ".valueOf" := by
    rw [tokens_append_of_head (c := '.') rfl (by decide), tokens_of_isName (isName_box h)]
  constructor
  · rw [hts]
    have hname : Identifier.isWord "valueOf".toList := rfl
    exact .member (isName_box h) (.name hname)
  · rw [hts, spelling_append, spelling_word]; rfl

theorem readsCall_accessor (h : isIdentifier s) :
    ReadsCall (s ++ "()") (identifierOf s ++ "()") := by
  have hts : tokens (s ++ "()") = [.word (identifierOf s).toList] ++ tokens "()" := by
    rw [tokens_append_of_head (c := '(') rfl (by decide), tokens_of_isIdentifier h]
  constructor
  · rw [hts]
    exact .named (.name (isName_identifierOf h)) .nil
  · rw [hts, spelling_append, spelling_word]; rfl

theorem ReadsPath.passing (hp : ReadsPath p) (h : isIdentifier s) :
    ReadsCall (p ++ "(" ++ s ++ "())") (p ++ "(" ++ identifierOf s ++ "())") := by
  have hlast : (p ++ "(").toList.getLast? = some '(' := by simp
  have hts : tokens (p ++ "(" ++ s ++ "())") =
      tokens p ++ tokens "(" ++ [.word (identifierOf s).toList] ++ tokens "())" := by
    rw [tokens_append_of_head (c := '(') rfl (by decide), tokens_append_of_last hlast (by decide),
      tokens_append_of_head (c := '(') rfl (by decide), tokens_of_isIdentifier h]
  constructor
  · have hargument : IsBalanced [.word (identifierOf s).toList, .mark '(', .mark ')'] :=
      .token (by simp) (by simp) (.group .nil .nil)
    rw [hts, List.append_assoc, List.append_assoc]
    exact .named hp.isPath hargument
  · rw [hts, spelling_append, spelling_append, spelling_append, spelling_word, hp.spelled]; rfl

theorem ReadsCall.hashed (h : ReadsCall s t) :
    ReadsCall (s ++ ".hashCode()") (t ++ ".hashCode()") := by
  have hts : tokens (s ++ ".hashCode()") = tokens s ++ tokens ".hashCode()" :=
    tokens_append_of_head (c := '.') rfl (by decide) s
  constructor
  · rw [hts]
    have hname : Identifier.isWord "hashCode".toList := rfl
    exact .onResult h.isCall (.name hname) .nil
  · rw [hts, spelling_append, h.spelled]; rfl

theorem isPrimitive_of_shape {t : TypeRef} (h : t.shape = .primitive) : isPrimitive t.name := by
  by_contra hp
  simp only [TypeRef.shape, if_neg hp] at h
  split_ifs at h
  cases ha : t.arity <;> rw [ha] at h <;> cases h

/-- The hash of a field is a method call. -/
theorem readsCall_fieldHash (h : isIdentifier f.name) :
    ReadsCall (fieldHash f).text (hashCall f) := by
  unfold hashCall fieldHash fieldName
  cases hs : f.type.shape with
  | primitive =>
    have hcall := ((readsPath_valueOf (isPrimitive_of_shape hs)).passing h).hashed
    simp only [String.append_assoc] at hcall
    simp only [HashTerm.text, String.append_assoc]
    exact hcall
  | primitiveArray => exact (readsPath_arraysMethod (s := "hashCode") rfl).passing h
  | objectArray => exact (readsPath_arraysMethod (s := "deepHashCode") rfl).passing h
  | object =>
    have hcall := (readsCall_accessor h).hashed
    simp only [String.append_assoc] at hcall
    exact hcall

/-! ## The hash of all fields -/

theorem tokens_mixed (sum next : HashTerm) : tokens (HashTerm.mixed sum next).text =
    .word ['3', '7'] :: .mark '*' ::
      (.mark '(' :: (tokens sum.text ++ .mark '+' :: tokens next.text ++ [.mark ')'])) := by
  have hopen : tokens ("37 * (" ++ sum.text) = tokens "37 * (" ++ tokens sum.text :=
    tokens_append_of_last (c := '(') rfl (by decide) _
  have hplus : tokens ("37 * (" ++ sum.text ++ " + ") =
      tokens ("37 * (" ++ sum.text) ++ tokens " + " :=
    tokens_append_of_head (c := ' ') rfl (by decide) _
  have hlast : ("37 * (" ++ sum.text ++ " + ").toList.getLast? = some ' ' := by
    rw [String.toList_append, List.getLast?_append]; rfl
  rw [HashTerm.text, tokens_append_of_head (c := ')') rfl (by decide),
    tokens_append_of_last hlast (by decide), hplus, hopen]
  have h37 : tokens "37 * (" = [.word ['3', '7'], .mark '*', .mark '('] := by decide
  have hsum : tokens " + " = [.mark '+'] := by decide
  have hclose : tokens ")" = [.mark ')'] := by decide
  simp [h37, hsum, hclose]

/--
One more field: its hash is added to the expression before it, which is one addend without
parentheses because it is a product, and the sum is multiplied by 37.
-/
theorem reads_mixed {sum : HashTerm} {e : Arithmetic} (hsum : Reads .product (tokens sum.text) e)
    (hf : isIdentifier f.name) :
    Reads .product (tokens (HashTerm.mixed sum (fieldHash f)).text)
      (.mul (.number ['3', '7']) (.add e (.call (tokens (fieldHash f).text)))) := by
  have hnext : Reads .product (tokens (fieldHash f).text) (.call (tokens (fieldHash f).text)) :=
    .product (.call (readsCall_fieldHash hf).isCall)
  have hgroup := Reads.group (.add (.sum hsum) hnext)
  have hfactor : Reads .product [.word ['3', '7']] (.number ['3', '7']) :=
    .product (.number (by decide))
  rw [tokens_mixed]
  exact .mul hfactor hgroup

/-- What several fields make of an expression: each contributes its hash once, in their order. -/
theorem reads_foldl (hn : ∀ f ∈ fs, isIdentifier f.name) {sum : HashTerm} {e : Arithmetic}
    (hsum : Reads .product (tokens sum.text) e) :
    ∃ e', Reads .product (tokens (fs.foldl (fun sum f => .mixed sum (fieldHash f)) sum).text) e' ∧
      e'.calls = e.calls ++ fs.map hashCall ∧
      ∀ h : String → BitVec 32,
        e'.value h = fs.foldl (fun acc f => 37 * (acc + h (hashCall f))) (e.value h) := by
  induction fs generalizing sum e with
  | nil => exact ⟨e, hsum, (List.append_nil _).symm, fun _ => rfl⟩
  | cons f fs ih =>
    obtain ⟨hf, hfs⟩ := List.forall_mem_cons.1 hn
    have hspell := (readsCall_fieldHash hf).spelled
    obtain ⟨e', he', hcalls, hvalue⟩ := ih hfs (reads_mixed hsum hf)
    refine ⟨e', he', ?_, fun h => ?_⟩
    · rw [hcalls]
      simp [Arithmetic.calls, hspell]
    · have h37 : BitVec.ofNat 32 (decimal ['3', '7']) = 37 := by decide
      rw [hvalue, List.foldl_cons, Arithmetic.value, Arithmetic.value, Arithmetic.value,
        Arithmetic.value, hspell, h37]

/-! ## The body -/

/-- A line returns what an expression comes to. -/
def Returns (line : String) (e : Arithmetic) : Prop :=
  ∃ ts, tokens line = .word "return".toList :: (ts ++ [.mark ';']) ∧ Reads .sum ts e

theorem Returns.unique {line : String} {e e' : Arithmetic} (h : Returns line e)
    (h' : Returns line e') : e = e' := by
  obtain ⟨ts, hts, hread⟩ := h
  obtain ⟨us, hus, hread'⟩ := h'
  obtain rfl := List.append_cancel_right (List.cons.inj (hts.symm.trans hus)).2
  exact hread.unique hread'

theorem tokens_return (s : String) : tokens ("return " ++ s ++ ";") =
    .word "return".toList :: (tokens s ++ [.mark ';']) := by
  rw [tokens_append_of_head (c := ';') rfl (by decide),
    tokens_append_of_last (c := ' ') rfl (by decide)]
  rfl

/--
The body of `hashCode` for fields that are not lazy is one line. It returns one expression, in which
the hash of each field is called once, in the order of the fields. Whatever values these have, the
expression comes to their fold from 17 on, modulo `2 ^ 32`.
-/
theorem hashCodeBody_folds (hlazy : hasLazyField fs = false) (hn : ∀ f ∈ fs, isIdentifier f.name) :
    (∀ f ∈ fs, IsName f.name → hashCall f = (fieldHash f).text) ∧
      ∃ line e, hashCodeBody fs = [line] ∧ (∀ e', Returns line e' ↔ e' = e) ∧
        e.calls = fs.map hashCall ∧
        ∀ h : String → BitVec 32,
          e.value h = fs.foldl (fun acc f => 37 * (acc + h (hashCall f))) 17 := by
  have hseed : Reads .product (tokens HashTerm.seed.text) (.number ['1', '7']) :=
    .product (.number (by decide))
  obtain ⟨e, he, hcalls, hvalue⟩ := reads_foldl hn hseed
  have hreturn : Returns ("return " ++ (hashExpression fs).text ++ ";") e :=
    ⟨_, tokens_return _, .sum he⟩
  refine ⟨fun f _ hf => hashCall_of_isName hf, _, e, by rw [hashCodeBody, hlazy]; rfl,
    fun e' => ?_, hcalls, hvalue⟩
  exact ⟨fun h => h.unique hreturn, fun h => h ▸ hreturn⟩

/-- A field of each shape, the last with a line feed at the end of its name. -/
def shapedFields : List Field :=
  [⟨"a", ⟨"int", .single, false⟩, .zero, none, none⟩,
   ⟨"b", ⟨"byte", .repeated, false⟩, .zero, none, none⟩,
   ⟨"c", ⟨"String", .repeated, false⟩, .zero, none, none⟩,
   ⟨"d\n", ⟨"String", .optional, false⟩, .zero, none, none⟩]

theorem hashCodeBody_folds_shapedFields : ∃ line e, hashCodeBody shapedFields = [line] ∧
    (∀ e', Returns line e' ↔ e' = e) ∧
    e.calls = ["Integer.valueOf(a()).hashCode()", "java.util.Arrays.hashCode(b())",
      "java.util.Arrays.deepHashCode(c())", "d().hashCode()"] ∧
    ∀ h : String → BitVec 32, e.value h =
      37 * (37 * (37 * (37 * (17 + h "Integer.valueOf(a()).hashCode()") +
        h "java.util.Arrays.hashCode(b())") + h "java.util.Arrays.deepHashCode(c())") +
          h "d().hashCode()") := by
  have hlazy : hasLazyField shapedFields = false := rfl
  obtain ⟨-, line, e, hline, hreads, hcalls, hvalue⟩ := hashCodeBody_folds hlazy (by decide)
  exact ⟨line, e, hline, hreads, hcalls.trans (by decide), hvalue⟩

end Typewright.Java
