import Mathlib.Data.List.Infix
import Typewright.Java.Containers
import Typewright.Proofs.Identifier
import Typewright.Proofs.TypeRef

/-!
# Spellings of types

A container is spelled before the type that it holds, which stands between angle brackets. The names
of containers have no brackets, so the first bracket of a spelling tells where the container ends.

- `Java.boxes_box`: what stands between the brackets of a container.
- `Java.wrapped_inj`: container and content can be told from the spelling.
- `TypeRef.accessorType_inj`, `TypeRef.boxedType_inj`: the arities of one type are spelled
  differently, on their own and between brackets.
- `TypeRef.storageType_inj`: the same for arity and deferral together.
- `TypeRef.not_encloses_storageType`: no primitive type stands between brackets.
- `TypeRef.storageType_marks`: the spellings of all references to one type.
-/

namespace Typewright

open Text

namespace Java

/-- Whether a character is an angle bracket. -/
def isBracket (ch : Char) : Bool :=
  ch == '<' || ch == '>'

/-- No angle bracket stands in the text. -/
def NoBracket (s : String) : Prop :=
  ∀ ch ∈ s.toList, isBracket ch = false

-- by the characters of the text: `Decidable` may also be found by trying out all characters
instance (s : String) : Decidable (NoBracket s) :=
  List.decidableBAll (isBracket · = false) s.toList

/-- The spelling of a container that holds a type. -/
def wrapped (container content : String) : String :=
  container ++ "<" ++ content ++ ">"

/-- A text stands directly between an opening and a closing bracket. -/
def Encloses (s inner : String) : Prop :=
  '<' :: (inner.toList ++ ['>']) <:+: s.toList

def primitiveNames : List String :=
  primitives.map Prod.fst

/-- How a type is spelled between brackets: a primitive one by its boxed name, another as it is. -/
def Boxes (name boxed : String) : Prop :=
  (name, boxed) ∈ primitives ∨ name ∉ primitiveNames ∧ boxed = name

/-! ## Brackets -/

theorem noBracket_append_iff {s t : String} : NoBracket (s ++ t) ↔ NoBracket s ∧ NoBracket t := by
  simp only [NoBracket, String.toList_append, List.forall_mem_append]

theorem noBracket_of_isQualifiedName {s : String} (h : isQualifiedName s) : NoBracket s := by
  intro ch hch
  have hpart {b : Char} (hb : Identifier.isPart b = false ∧ b ≠ '.' ∧ b ≠ '\n') : ch ≠ b := by
    rintro rfl
    rcases isPart_of_isQualifiedName h ch hch with h | h | h
    · simp [hb.1] at h
    · exact hb.2.1 h
    · exact hb.2.2 h
  have hopen : ch ≠ '<' := hpart (by decide)
  have hclose : ch ≠ '>' := hpart (by decide)
  simp [isBracket, hopen, hclose]

theorem toList_wrapped (container content : String) :
    (wrapped container content).toList =
      container.toList ++ '<' :: (content.toList ++ ['>']) := by
  simp [wrapped]

/-- What comes before the first bracket, that bracket and the rest can be told from the whole. -/
theorem append_bracket_inj {s t : String} {b e : Char} {us vs : List Char} (hs : NoBracket s)
    (ht : NoBracket t) (hb : isBracket b) (he : isBracket e)
    (h : s.toList ++ b :: us = t.toList ++ e :: vs) : s = t ∧ b = e ∧ us = vs := by
  have hspan {cs ws : List Char} {d : Char} (hcs : ∀ ch ∈ cs, isBracket ch = false)
      (hd : isBracket d) : (cs ++ d :: ws).takeWhile (!isBracket ·) = cs := by
    rw [List.takeWhile_append_of_pos fun ch hch => by simp [hcs ch hch],
      List.takeWhile_cons_of_neg (by simp [hd]), List.append_nil]
  have hstart : s.toList = t.toList := calc
    s.toList = (s.toList ++ b :: us).takeWhile (!isBracket ·) := (hspan hs hb).symm
    _ = (t.toList ++ e :: vs).takeWhile (!isBracket ·) := by rw [h]
    _ = t.toList := hspan ht he
  rw [hstart, List.append_cancel_left_eq] at h
  exact ⟨String.toList_inj.1 hstart, List.cons.inj h⟩

/-- Container and content can be told from the spelling. -/
theorem wrapped_inj {c d s t : String} (hc : NoBracket c) (hd : NoBracket d)
    (h : wrapped c s = wrapped d t) : c = d ∧ s = t := by
  rw [← String.toList_inj, toList_wrapped, toList_wrapped] at h
  obtain ⟨hcontainer, -, hrest⟩ := append_bracket_inj hc hd rfl rfl h
  exact ⟨hcontainer, String.toList_inj.1 (List.append_cancel_right hrest)⟩

/-- After a text without brackets the next bracket opens what is enclosed, or a later one does. -/
theorem infix_append_bracket {s : String} {us vs : List Char} (hs : NoBracket s)
    (h : '<' :: us <:+: s.toList ++ '<' :: vs) : us <+: vs ∨ '<' :: us <:+: vs := by
  unfold NoBracket at hs
  generalize s.toList = cs at hs h
  induction cs with
  | nil => exact (List.infix_cons_iff.1 h).imp_left fun hp => (List.cons_prefix_cons.1 hp).2
  | cons ch cs ih =>
    obtain ⟨hch, hcs⟩ := List.forall_mem_cons.1 hs
    rcases List.infix_cons_iff.1 h with hp | h
    · obtain ⟨rfl, -⟩ := List.cons_prefix_cons.1 hp
      cases hch
    · exact ih hcs h

/-- What stands between the brackets of an innermost container is all of its content. -/
theorem eq_of_infix_innermost {c s p : String} {closing : List Char} (hc : NoBracket c)
    (hs : NoBracket s) (hp : NoBracket p) (hclosing : '<' ∉ closing)
    (h : '<' :: (p.toList ++ ['>']) <:+: c.toList ++ '<' :: (s.toList ++ '>' :: closing)) :
    p = s := by
  rcases infix_append_bracket hc h with ⟨r, hr⟩ | h
  · rw [List.append_assoc] at hr
    exact (append_bracket_inj hp hs rfl rfl hr).1
  · have hmem : '<' ∈ s.toList ++ '>' :: closing := h.subset List.mem_cons_self
    rcases List.mem_append.1 hmem with hmem | hmem
    · exact absurd (hs '<' hmem) (by decide)
    · exact absurd hmem (by simpa using hclosing)

theorem encloses_wrapped {c s p : String} (hc : NoBracket c) (hs : NoBracket s) (hp : NoBracket p)
    (h : Encloses (wrapped c s) p) : p = s := by
  rw [Encloses, toList_wrapped] at h
  exact eq_of_infix_innermost hc hs hp List.not_mem_nil h

theorem encloses_wrapped_wrapped {c d s p : String} (hc : NoBracket c) (hd : NoBracket d)
    (hs : NoBracket s) (hp : NoBracket p) (h : Encloses (wrapped c (wrapped d s)) p) : p = s := by
  rw [Encloses, toList_wrapped, toList_wrapped, List.append_assoc, List.cons_append,
    List.append_assoc] at h
  rcases infix_append_bracket hc h with ⟨r, hr⟩ | h
  · -- the next bracket after the outer one opens the inner one
    rw [List.append_assoc] at hr
    obtain ⟨-, hb, -⟩ := append_bracket_inj hp hd rfl rfl hr
    cases hb
  · exact eq_of_infix_innermost hd hs hp (by decide) h

theorem not_encloses_of_noBracket {s p : String} (hs : NoBracket s) : ¬ Encloses s p :=
  fun h => absurd (hs '<' (h.subset List.mem_cons_self)) (by decide)

/-! ## Primitive types and their boxes -/

theorem boxes_box (name : String) : Boxes name (box name) := by
  unfold box Boxes primitiveNames
  cases h : primitives.lookup name with
  | none =>
    refine .inr ⟨?_, rfl⟩
    intro hmem
    obtain ⟨p, hp, rfl⟩ := List.mem_map.1 hmem
    simpa using List.lookup_eq_none_iff.1 h p hp
  | some boxed =>
    obtain ⟨before, after, hsplit, -⟩ := List.lookup_eq_some_iff.1 h
    exact .inl (by rw [hsplit]; simp)

theorem box_of_notMem {name : String} (h : name ∉ primitiveNames) : box name = name := by
  rcases boxes_box name with hmem | ⟨-, hself⟩
  · exact absurd (List.mem_map_of_mem hmem) h
  · exact hself

theorem noBracket_of_mem_primitives {name boxed : String} (h : (name, boxed) ∈ primitives) :
    NoBracket boxed := by
  have hall : ∀ p ∈ primitives, NoBracket p.2 := by decide
  exact hall _ h

namespace Boxes

variable {name boxed : String}

theorem length_le (h : Boxes name boxed) : name.length ≤ boxed.length := by
  have hall : ∀ p ∈ primitives, p.1.length ≤ p.2.length := by decide
  rcases h with h | ⟨-, rfl⟩
  · exact hall _ h
  · exact le_rfl

theorem notMem (h : Boxes name boxed) : boxed ∉ primitiveNames := by
  have hall : ∀ p ∈ primitives, p.2 ∉ primitiveNames := by decide
  rcases h with h | ⟨hname, rfl⟩
  · exact hall _ h
  · exact hname

theorem noBracket (h : Boxes name boxed) (hname : NoBracket name) : NoBracket boxed := by
  rcases h with h | ⟨-, rfl⟩
  · exact noBracket_of_mem_primitives h
  · exact hname

/-- A boxed name encloses nothing that the name did not. -/
theorem not_encloses {p : String} (h : Boxes name boxed) (hname : ¬ Encloses name p) :
    ¬ Encloses boxed p := by
  rcases h with h | ⟨-, rfl⟩
  · exact not_encloses_of_noBracket (noBracket_of_mem_primitives h)
  · exact hname

theorem ne_array (h : Boxes name boxed) : boxed ≠ name ++ "[]" := by
  have hall : ∀ p ∈ primitives, p.2 ≠ p.1 ++ "[]" := by decide
  rcases h with h | ⟨-, rfl⟩
  · exact hall _ h
  · intro h
    simpa using congrArg String.length h

end Boxes

theorem notMem_primitiveNames {s : String} {ch : Char} (hs : s.toList.getLast? = some ch)
    (hch : ch = ']' ∨ ch = '>') : s ∉ primitiveNames := by
  have hall : ∀ n ∈ primitiveNames,
      n.toList.getLast? ≠ some ']' ∧ n.toList.getLast? ≠ some '>' := by decide
  intro hmem
  rcases hch with rfl | rfl
  · exact (hall s hmem).1 hs
  · exact (hall s hmem).2 hs

theorem getLast?_array (s : String) : (s ++ "[]").toList.getLast? = some ']' := by simp

theorem getLast?_wrapped (c s : String) : (wrapped c s).toList.getLast? = some '>' := by
  rw [wrapped, String.toList_append]
  exact List.getLast?_concat

theorem array_ne_wrapped (s c t : String) : s ++ "[]" ≠ wrapped c t := by
  intro h
  have hlast := getLast?_wrapped c t
  rw [← h, getLast?_array] at hlast
  cases hlast

theorem length_lt_array (s : String) : s.length < (s ++ "[]").length := by
  rw [String.length_append]
  exact Nat.lt_add_of_pos_right (by decide)

theorem length_lt_wrapped (c s : String) : s.length < (wrapped c s).length := by
  rw [← String.length_toList, ← String.length_toList, toList_wrapped, List.length_append,
    List.length_cons, List.length_append]
  omega

end Java

namespace TypeRef

open Java

variable {c : Containers} {t u : TypeRef} {name : String}

/-! ## References to one type -/

theorem accessorType_single (h : t.arity = .single) : t.accessorType c = t.name := by
  rw [accessorType, h]

theorem accessorType_repeated (h : t.arity = .repeated) : t.accessorType c = t.name ++ "[]" := by
  rw [accessorType, h]

theorem accessorType_optional (h : t.arity = .optional) :
    t.accessorType c = wrapped c.optionalType (box t.name) := by
  rw [accessorType, h]
  rfl

theorem boxedType_single (h : t.arity = .single) : t.boxedType c = box t.name := by
  rw [boxedType, accessorType_single h]

/-- An array is no primitive type, whatever its elements are. -/
theorem boxedType_repeated (h : t.arity = .repeated) : t.boxedType c = t.name ++ "[]" := by
  rw [boxedType, accessorType_repeated h,
    box_of_notMem (notMem_primitiveNames (getLast?_array t.name) (.inl rfl))]

theorem boxedType_optional (h : t.arity = .optional) :
    t.boxedType c = wrapped c.optionalType (box t.name) := by
  rw [boxedType, accessorType_optional h,
    box_of_notMem (notMem_primitiveNames (getLast?_wrapped _ _) (.inr rfl))]

theorem storageType_of_lazy (h : t.isLazy = true) :
    t.storageType c = wrapped c.lazyType (t.boxedType c) := by
  rw [storageType, if_pos h]
  rfl

theorem storageType_of_not_lazy (h : t.isLazy = false) : t.storageType c = t.accessorType c := by
  rw [storageType, h]
  rfl

/-- A spelling for each arity tells the arity if the three are different. -/
theorem arity_inj (spell : Arity → String) (hrepeated : spell .single ≠ spell .repeated)
    (hoptional : spell .single ≠ spell .optional) (hmarked : spell .repeated ≠ spell .optional) :
    Function.Injective spell := by
  intro a b h
  cases a <;> cases b
  all_goals first
    | rfl
    | exact absurd h (by assumption)
    | exact absurd h.symm (by assumption)

theorem ne_of_length_lt {s t : String} (h : s.length < t.length) : s ≠ t :=
  ne_of_apply_ne String.length h.ne

/-- What accessors of one type return is spelled differently for each arity. -/
theorem accessorType_inj (hname : t.name = u.name) (h : t.accessorType c = u.accessorType c) :
    t.arity = u.arity := by
  obtain ⟨name, a, l⟩ := t
  obtain ⟨_, b, m⟩ := u
  obtain rfl := hname
  refine arity_inj (fun a => accessorType c ⟨name, a, false⟩) ?_ ?_ ?_ h
  · exact ne_of_length_lt (length_lt_array name)
  · exact ne_of_length_lt ((boxes_box name).length_le.trans_lt (length_lt_wrapped _ _))
  · exact array_ne_wrapped name _ _

/-- So it is between brackets. -/
theorem boxedType_inj (hname : t.name = u.name) (h : t.boxedType c = u.boxedType c) :
    t.arity = u.arity := by
  obtain ⟨name, a, l⟩ := t
  obtain ⟨_, b, m⟩ := u
  obtain rfl := hname
  refine arity_inj (fun a => boxedType c ⟨name, a, false⟩) ?_ ?_ ?_ h
  · rw [boxedType_single rfl, boxedType_repeated rfl]
    exact (boxes_box name).ne_array
  · rw [boxedType_single rfl, boxedType_optional rfl]
    exact ne_of_length_lt (length_lt_wrapped _ _)
  · rw [boxedType_repeated rfl, boxedType_optional rfl]
    exact array_ne_wrapped name _ _

theorem length_le_boxedType (t : TypeRef) : t.name.length ≤ (t.boxedType c).length := by
  have hbox := (boxes_box t.name).length_le
  cases h : t.arity with
  | single => rwa [boxedType_single h]
  | repeated =>
    rw [boxedType_repeated h]
    exact (length_lt_array t.name).le
  | optional =>
    rw [boxedType_optional h]
    exact hbox.trans (length_lt_wrapped _ _).le

/-- The container of deferred values starts no spelling of what an accessor returns. -/
theorem accessorType_ne_storageType (hl : NoBracket c.lazyType) (ho : NoBracket c.optionalType)
    (hne : c.lazyType ≠ c.optionalType) (hname : t.name = u.name) :
    t.accessorType c ≠ wrapped c.lazyType (u.boxedType c) := by
  cases h : t.arity with
  | single =>
    rw [accessorType_single h, hname]
    exact ne_of_length_lt ((length_le_boxedType u).trans_lt (length_lt_wrapped _ _))
  | repeated =>
    rw [accessorType_repeated h]
    exact array_ne_wrapped _ _ _
  | optional =>
    rw [accessorType_optional h]
    exact fun heq => hne (wrapped_inj ho hl heq).1.symm

/-- The spelling for fields and parameters tells arity and deferral of a reference to a type. -/
theorem storageType_inj (hl : NoBracket c.lazyType) (ho : NoBracket c.optionalType)
    (hne : c.lazyType ≠ c.optionalType) (hname : t.name = u.name)
    (h : t.storageType c = u.storageType c) : t.arity = u.arity ∧ t.isLazy = u.isLazy := by
  cases ht : t.isLazy <;> cases hu : u.isLazy
  · rw [storageType_of_not_lazy ht, storageType_of_not_lazy hu] at h
    exact ⟨accessorType_inj hname h, rfl⟩
  · rw [storageType_of_not_lazy ht, storageType_of_lazy hu] at h
    exact absurd h (accessorType_ne_storageType hl ho hne hname)
  · rw [storageType_of_lazy ht, storageType_of_not_lazy hu] at h
    exact absurd h.symm (accessorType_ne_storageType hl ho hne hname.symm)
  · rw [storageType_of_lazy ht, storageType_of_lazy hu] at h
    exact ⟨boxedType_inj hname (wrapped_inj hl hl h).2, rfl⟩

/-! ## What stands between brackets -/

theorem noBracket_array (h : NoBracket name) : NoBracket (name ++ "[]") :=
  noBracket_append_iff.2 ⟨h, by decide⟩

theorem noBracket_of_mem_primitiveNames {p : String} (h : p ∈ primitiveNames) : NoBracket p := by
  have hall : ∀ n ∈ primitiveNames, NoBracket n := by decide
  exact hall p h

variable {p : String}

theorem not_encloses_wrapped {container content : String} (hc : NoBracket container)
    (hs : NoBracket content) (hcontent : content ∉ primitiveNames) (hp : p ∈ primitiveNames) :
    ¬ Encloses (wrapped container content) p := by
  intro h
  obtain rfl := encloses_wrapped hc hs (noBracket_of_mem_primitiveNames hp) h
  exact hcontent hp

/-- Nor does a container in another. -/
theorem not_encloses_wrapped_wrapped {outer inner content : String} (ho : NoBracket outer)
    (hi : NoBracket inner) (hs : NoBracket content) (hcontent : content ∉ primitiveNames)
    (hp : p ∈ primitiveNames) : ¬ Encloses (wrapped outer (wrapped inner content)) p := by
  intro h
  obtain rfl := encloses_wrapped_wrapped ho hi hs (noBracket_of_mem_primitiveNames hp) h
  exact hcontent hp

theorem not_encloses_accessorType (ho : NoBracket c.optionalType) (hn : NoBracket t.name)
    (hp : p ∈ primitiveNames) : ¬ Encloses (t.accessorType c) p := by
  have hbox := boxes_box t.name
  cases h : t.arity with
  | single =>
    rw [accessorType_single h]
    exact not_encloses_of_noBracket hn
  | repeated =>
    rw [accessorType_repeated h]
    exact not_encloses_of_noBracket (noBracket_array hn)
  | optional =>
    rw [accessorType_optional h]
    exact not_encloses_wrapped ho (hbox.noBracket hn) hbox.notMem hp

theorem not_encloses_boxedType (ho : NoBracket c.optionalType) (hn : NoBracket t.name)
    (hp : p ∈ primitiveNames) : ¬ Encloses (t.boxedType c) p :=
  (boxes_box _).not_encloses (not_encloses_accessorType ho hn hp)

/-- The container of deferred values holds no primitive type. -/
theorem not_encloses_lazyType (hl : NoBracket c.lazyType) (ho : NoBracket c.optionalType)
    (hn : NoBracket t.name) (hp : p ∈ primitiveNames) :
    ¬ Encloses (wrapped c.lazyType (t.boxedType c)) p := by
  have hbox := boxes_box t.name
  cases h : t.arity with
  | single =>
    rw [boxedType_single h]
    exact not_encloses_wrapped hl (hbox.noBracket hn) hbox.notMem hp
  | repeated =>
    have harray := notMem_primitiveNames (getLast?_array t.name) (.inl rfl)
    rw [boxedType_repeated h]
    exact not_encloses_wrapped hl (noBracket_array hn) harray hp
  | optional =>
    rw [boxedType_optional h]
    exact not_encloses_wrapped_wrapped hl ho (hbox.noBracket hn) hbox.notMem hp

theorem not_encloses_storageType (hl : NoBracket c.lazyType) (ho : NoBracket c.optionalType)
    (hn : NoBracket t.name) (hp : p ∈ primitiveNames) : ¬ Encloses (t.storageType c) p := by
  cases h : t.isLazy with
  | false => rw [storageType_of_not_lazy h]; exact not_encloses_accessorType ho hn hp
  | true => rw [storageType_of_lazy h]; exact not_encloses_lazyType hl ho hn hp

/--
The references to one type, of which there are six, are spelled differently where values are kept. A
deferred value is kept in its container, by the boxed name if that is a primitive type, any other as
it is. A type whose name has no brackets is spelled without a primitive type between brackets, while
an array keeps the name of its elements.
-/
theorem storageType_marks (hl : isQualifiedName c.lazyType) (ho : isQualifiedName c.optionalType)
    (hne : c.lazyType ≠ c.optionalType) (name : String) :
    (∀ t u : TypeRef, t.name = name → u.name = name → t.storageType c = u.storageType c → t = u) ∧
      (∀ t : TypeRef, t.name = name →
        (t.isLazy = true → ∃ boxed, Boxes (t.accessorType c) boxed ∧
          t.storageType c = c.lazyType ++ "<" ++ boxed ++ ">") ∧
        (t.isLazy = false → t.storageType c = t.accessorType c)) ∧
      (NoBracket name → ∀ t : TypeRef, t.name = name → ∀ p ∈ primitiveNames,
        ¬ Encloses (t.accessorType c) p ∧ ¬ Encloses (t.boxedType c) p ∧
          ¬ Encloses (t.storageType c) p) ∧
      ∀ t : TypeRef, t.name = name → t.arity = .repeated →
        t.accessorType c = name ++ "[]" ∧
          t.storageType c =
            if t.isLazy then c.lazyType ++ "<" ++ (name ++ "[]") ++ ">" else name ++ "[]" := by
  have hl' := noBracket_of_isQualifiedName hl
  have ho' := noBracket_of_isQualifiedName ho
  refine ⟨?_, fun t _ => ⟨fun h => ?_, storageType_of_not_lazy⟩, ?_, ?_⟩
  · rintro ⟨_, a, l⟩ ⟨_, b, m⟩ ht hu h
    obtain ⟨harity, hlazy⟩ := storageType_inj hl' ho' hne (ht.trans hu.symm) h
    rw [TypeRef.mk.injEq]
    exact ⟨ht.trans hu.symm, harity, hlazy⟩
  · exact ⟨_, boxes_box _, storageType_of_lazy h⟩
  · rintro hn t rfl p hp
    exact ⟨not_encloses_accessorType ho' hn hp, not_encloses_boxedType ho' hn hp,
      not_encloses_storageType hl' ho' hn hp⟩
  · rintro t rfl h
    refine ⟨accessorType_repeated h, ?_⟩
    rw [storageType, boxedType_repeated h, accessorType_repeated h]

/-- A deferred primitive value is boxed, a deferred array of primitive values is not. -/
theorem storageType_marks_standard :
    isQualifiedName Containers.standard.lazyType ∧
      isQualifiedName Containers.standard.optionalType ∧
      Containers.standard.lazyType ≠ Containers.standard.optionalType ∧ NoBracket "int" ∧
      TypeRef.storageType .standard ⟨"int", .single, true⟩ =
        "java.util.function.Supplier<Integer>" ∧
      TypeRef.storageType .standard ⟨"int", .repeated, true⟩ =
        "java.util.function.Supplier<" ++ ("int" ++ "[]") ++ ">" ∧
      TypeRef.storageType .standard ⟨"int", .single, true⟩ ≠
        TypeRef.storageType .standard ⟨"int", .optional, false⟩ ∧
      ¬ Encloses (TypeRef.storageType .standard ⟨"int", .single, true⟩) "int" := by
  have hl : isQualifiedName Containers.standard.lazyType := by decide
  have ho : isQualifiedName Containers.standard.optionalType := by decide
  have hne : Containers.standard.lazyType ≠ Containers.standard.optionalType := by decide
  have hn : NoBracket "int" := by decide
  obtain ⟨hapart, -, hinner, harray⟩ := storageType_marks hl ho hne "int"
  refine ⟨hl, ho, hne, hn, rfl, (harray _ rfl rfl).2, fun h => ?_,
    (hinner hn _ rfl "int" (by decide)).2.2⟩
  cases hapart _ _ rfl rfl h

end TypeRef

end Typewright
