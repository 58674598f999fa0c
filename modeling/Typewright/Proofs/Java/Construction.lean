import Mathlib.Data.List.Nodup
import Mathlib.Logic.Function.Basic
import Typewright.Identifier
import Typewright.Java.Unit
import Typewright.Proofs.Constructor.Plans
import Typewright.Proofs.Identifier

/-!
# Construction

What the constructors of generated classes do to an object. A name without qualification denotes the
parameter of that name, and the field if there is none; so a parameter can hide a field from the
body. Default expressions are constants here, and the object is the values of its fields so far.

- `Constructor.run`: one constructor, on top of what the constructor of the superclass made.
- `construct`: a class and its superclasses, each running the constructor that its subclass calls.
- `Constructor.run_untouched`: what a constructor leaves alone, hidden fields among it.
- `exists_foldlM_assign`: assignments to names that no parameter hides reach their fields.
-/

namespace Typewright.Java

/-- The identifier in source text for a name, at the end of which a line feed is mere space. -/
def identifierOf (name : String) : String :=
  String.ofList (Identifier.dropFinalBreak name.toList)

/-- The values of the fields of an object that have been assigned. -/
abbrev Object (V : Type) := String → Option V

/-- What the body of a constructor can name: its parameters, and the fields of the object. -/
structure Activation (V : Type) where
  parameters : String → Option V
  fields : Object V

namespace Activation

variable {V : Type}

/-- The value of a name; a parameter hides the field of its name. -/
def read (a : Activation V) (n : String) : Option V :=
  (a.parameters n).or (a.fields n)

/-- The activation after an assignment to a name; a parameter hides the field of its name. -/
def write (a : Activation V) (n : String) (v : V) : Activation V :=
  if (a.parameters n).isSome then { a with parameters := Function.update a.parameters n (some v) }
  else { a with fields := Function.update a.fields n (some v) }

/-- The value of an expression, where it has one; no constructor forces a deferred value. -/
def evaluate (constant : String → V) (a : Activation V) : Expression → Option V
  | .name n => a.read (identifierOf n)
  | .own f => a.fields (identifierOf f)
  | .forced _ => none
  | .copied e => some (constant e)

/-- The activation after an assignment, if the value can be had. -/
def assign (constant : String → V) (a : Activation V) (s : Assignment) : Option (Activation V) := do
  let v ← a.evaluate constant s.value
  return a.write (identifierOf s.target) v

end Activation

namespace Constructor

variable {V : Type}

/-- The identifiers of the parameters of a constructor. -/
def parameterNames (k : Constructor) : List String :=
  k.parameters.map fun b => identifierOf b.name

/-- The parameters of a call. They have to bear different names, and there is a value for each. -/
def bind (k : Constructor) (args : List V) : Option (String → Option V) :=
  if k.parameterNames.Nodup ∧ k.parameterNames.length = args.length then
    some fun n => (k.parameterNames.zip args).lookup n
  else none

/--
The object that a constructor makes of what the constructor of the superclass makes. The arguments
for that one are evaluated before there is an object.
-/
def run (constant : String → V) (parent : List V → Option (Object V)) (k : Constructor)
    (args : List V) : Option (Object V) := do
  let parameters ← k.bind args
  let passed ← k.superArguments.mapM
    ((⟨parameters, fun _ => none⟩ : Activation V).evaluate constant)
  let fields ← parent passed
  let last ← k.assignments.foldlM (Activation.assign constant) ⟨parameters, fields⟩
  return last.fields

end Constructor

/--
The object that is made by the classes of a chain, the innermost first. A class runs its constructor
with as many parameters as it is called with; above the chain there is one without parameters.
-/
def construct {V : Type} (constant : String → V) : List ClassUnit → List V → Option (Object V)
  | [], args => if args.isEmpty then some fun _ => none else none
  | u :: us, args => do
    let k ← u.constructors.find? fun k => k.parameters.length = args.length
    k.run constant (construct constant us) args

variable {V : Type} {constant : String → V}

/-! ## What is left alone -/

namespace Activation

theorem isSome_parameters_write (a : Activation V) (n : String) (v : V) (m : String) :
    ((a.write n v).parameters m).isSome = (a.parameters m).isSome := by
  unfold write
  split_ifs with h
  · by_cases hm : m = n
    · subst hm
      simp [h]
    · simp [Function.update_of_ne hm]
  · rfl

/-- A field that a parameter hides is left alone, and so is one of another name. -/
theorem fields_write {a : Activation V} {n m : String} (v : V)
    (h : (a.parameters m).isSome ∨ n ≠ m) : (a.write n v).fields m = a.fields m := by
  unfold write
  split_ifs with hn
  · rfl
  · have hne : m ≠ n := by
      rintro rfl
      exact h.elim hn fun h => h rfl
    exact Function.update_of_ne hne _ _

/-- Where no parameter hides the field, an assignment reaches it. -/
theorem assign_of_none {a : Activation V} {s : Assignment} {v : V}
    (hv : a.evaluate constant s.value = some v) (h : a.parameters (identifierOf s.target) = none) :
    a.assign constant s =
      some { a with fields := Function.update a.fields (identifierOf s.target) (some v) } := by
  have hw : ¬ (a.parameters (identifierOf s.target)).isSome := by simp [h]
  rw [assign, hv, Option.bind_eq_bind, Option.bind_some, write, if_neg hw]; rfl

/-- Several assignments leave alone what each of them leaves alone. -/
theorem fields_foldlM {ss : List Assignment} {a b : Activation V} {m : String}
    (hs : ss.foldlM (assign constant) a = some b)
    (h : (a.parameters m).isSome ∨ ∀ s ∈ ss, identifierOf s.target ≠ m) :
    b.fields m = a.fields m := by
  induction ss generalizing a with
  | nil => cases hs; rfl
  | cons s r ih =>
    rw [List.foldlM_cons] at hs
    obtain ⟨c, hc, hs⟩ := Option.bind_eq_some_iff.1 hs
    obtain ⟨v, -, hv⟩ := Option.bind_eq_some_iff.1 hc
    obtain rfl := Option.some.inj hv
    rw [ih hs, fields_write v (h.imp_right fun h => h s List.mem_cons_self)]
    rw [isSome_parameters_write]
    exact h.imp_right fun h t ht => h t (List.mem_cons_of_mem s ht)

end Activation

/-! ## Calls -/

theorem Constructor.run_of_steps {parent : List V → Option (Object V)} {k : Constructor}
    {args passed : List V} {parameters : String → Option V} {made : Object V} {last : Activation V}
    (hb : k.bind args = some parameters)
    (hp : k.superArguments.mapM ((⟨parameters, fun _ => none⟩ : Activation V).evaluate constant) =
      some passed)
    (hm : parent passed = some made)
    (hl : k.assignments.foldlM (Activation.assign constant) ⟨parameters, made⟩ = some last) :
    k.run constant parent args = some last.fields := by
  simp [run, hb, hp, hm, hl]

theorem Constructor.bind_some {k : Constructor} {args : List V} {parameters : String → Option V}
    (h : k.bind args = some parameters) :
    k.parameterNames.Nodup ∧ ∀ n, (parameters n).isSome ↔ n ∈ k.parameterNames := by
  unfold bind at h
  split_ifs at h with hn
  obtain rfl := Option.some.inj h
  refine ⟨hn.1, fun n => ?_⟩
  rw [List.lookup_isSome_iff]
  constructor
  · rintro ⟨p, hp, hpn⟩
    obtain rfl := eq_of_beq hpn
    exact (List.of_mem_zip hp).1
  · intro hmem
    rw [← List.map_fst_zip (Nat.le_of_eq hn.2)] at hmem
    obtain ⟨p, hp, rfl⟩ := List.mem_map.1 hmem
    exact ⟨p, hp, BEq.rfl⟩

/--
A constructor leaves alone what it assigns nothing to, and also what it assigns to where a parameter
hides the field.
-/
theorem Constructor.run_untouched {parent : List V → Option (Object V)} {k : Constructor}
    {args : List V} {o : Object V} (h : k.run constant parent args = some o) :
    ∃ passed made, passed.length = k.superArguments.length ∧ parent passed = some made ∧
      ∀ m, (m ∈ k.parameterNames ∨ ∀ s ∈ k.assignments, identifierOf s.target ≠ m) →
        o m = made m := by
  obtain ⟨parameters, hb, h⟩ := Option.bind_eq_some_iff.1 h
  obtain ⟨passed, hp, h⟩ := Option.bind_eq_some_iff.1 h
  obtain ⟨made, hm, h⟩ := Option.bind_eq_some_iff.1 h
  obtain ⟨last, hl, h⟩ := Option.bind_eq_some_iff.1 h
  obtain rfl := Option.some.inj h
  have hlen := (Fallible.mapM_some_iff.1 hp).length_eq
  refine ⟨passed, made, hlen.symm, hm, fun m hh => ?_⟩
  refine Activation.fields_foldlM hl (hh.imp_left fun hh => ?_)
  exact ((bind_some hb).2 m).2 hh

/-! ## Names -/

theorem dropFinalBreak_cons {c : Char} (hc : c ≠ '\n') (cs : List Char) :
    Identifier.dropFinalBreak (c :: cs) = c :: Identifier.dropFinalBreak cs := by
  unfold Identifier.dropFinalBreak
  cases cs with
  | nil => simp [hc]
  | cons d r =>
    rw [List.getLast?_cons_cons, List.dropLast_cons_cons]
    split_ifs <;> rfl

theorem identifierOf_append_break (s : String) : identifierOf (s ++ "\n") = s := by
  have hb : (s ++ "\n").toList.getLast? = some '\n' := by
    rw [String.toList_append]
    exact List.getLast?_concat
  rw [identifierOf, Identifier.dropFinalBreak, if_pos hb, String.toList_append]
  exact (congrArg String.ofList List.dropLast_concat).trans String.ofList_toList

/-- A name is its identifier, apart from a line feed that may follow. -/
theorem eq_identifierOf_or (s : String) : s = identifierOf s ∨ s = identifierOf s ++ "\n" := by
  unfold identifierOf Identifier.dropFinalBreak
  split_ifs with hb
  · right
    rw [← String.toList_inj, String.toList_append, String.toList_ofList]
    exact (List.dropLast_append_getLast? _ hb).symm
  · exact .inl String.ofList_toList.symm

theorem identifierOf_of_noBreak {s : String} (h : Text.NoBreak s) : identifierOf s = s := by
  rcases eq_identifierOf_or s with hs | hs
  · exact hs.symm
  · rw [hs] at h
    exact absurd (Text.noBreak_append_iff.1 h).2 (by decide)

theorem isName_identifierOf {s : String} (h : isIdentifier s) : IsName (identifierOf s) := by
  rwa [IsName, identifierOf, String.toList_ofList]

/-- The identifier of a field. -/
def fieldName (f : Field) : String :=
  identifierOf f.name

/-- The identifier of the constructor parameter for a field. -/
def argumentName (f : Field) : String :=
  identifierOf (parameterName f.name)

theorem argumentName_eq (f : Field) : argumentName f = "_" ++ fieldName f := by
  have hl : (parameterName f.name).toList = '_' :: f.name.toList := by
    rw [parameterName, String.toList_append]; rfl
  have hd := dropFinalBreak_cons (c := '_') (by decide) f.name.toList
  apply String.toList_inj.1
  simp [argumentName, fieldName, identifierOf, hl, hd]

/-- Parameters have different names exactly if their fields have. -/
theorem argumentName_inj {f g : Field} :
    argumentName f = argumentName g ↔ fieldName f = fieldName g := by
  rw [argumentName_eq, argumentName_eq, ← String.toList_inj, String.toList_append,
    String.toList_append, List.append_cancel_left_eq, String.toList_inj]

theorem nodup_argumentName_iff {fs : List Field} :
    (fs.map argumentName).Nodup ↔ (fs.map fieldName).Nodup := by
  simp only [List.Nodup, List.pairwise_map, ne_eq, argumentName_inj]

/-! ## The constructors of plans -/

variable {c : Containers} {inherited own fs : List Field} {era : Version} {arg : Field → V}

/-- What the constructor of an era passes on for a field, given the arguments of the caller. -/
def passedFor (constant : String → V) (arg : Field → V) (era : Version) (f : Field) : V :=
  if f.since ≤ era then arg f else constant (f.default.getD "")

namespace Constructor

theorem parameterNames_ofPlan (c : Containers) (p : ConstructorPlan) :
    (ofPlan c p).parameterNames = p.parameters.map argumentName := by
  simp [parameterNames, ofPlan, parameterOf, argumentName, Function.comp_def]

theorem superArguments_planFor (c : Containers) (inherited own : List Field) (era : Version) :
    (ofPlan c (planFor inherited own era)).superArguments =
      inherited.map fun f => valueExpression (valueFor era f) := by
  simp [ofPlan, planFor, Function.comp_def]

theorem assignments_planFor (c : Containers) (inherited own : List Field) (era : Version) :
    (ofPlan c (planFor inherited own era)).assignments =
      own.map fun f => ⟨f.name, valueExpression (valueFor era f)⟩ := by
  simp [ofPlan, planFor, Function.comp_def]

end Constructor

theorem lookup_of_nodup {l : List (String × V)} (hn : (l.map (·.1)).Nodup) {n : String} {v : V}
    (h : (n, v) ∈ l) : l.lookup n = some v := by
  obtain ⟨pre, post, rfl⟩ := List.append_of_mem h
  rw [List.map_append, List.map_cons, List.nodup_append] at hn
  refine List.lookup_eq_some_iff.2 ⟨pre, post, rfl, fun p hp => ?_⟩
  have hne := hn.2.2 p.1 (List.mem_map_of_mem hp) n List.mem_cons_self
  simpa using hne.symm

/-- In a call of a constructor each parameter has the argument for its field. -/
theorem exists_bind_ofPlan (c : Containers) {p : ConstructorPlan} (arg : Field → V)
    (hn : (p.parameters.map fieldName).Nodup) :
    ∃ parameters, (Constructor.ofPlan c p).bind (p.parameters.map arg) = some parameters ∧
      ∀ f ∈ p.parameters, parameters (argumentName f) = some (arg f) := by
  have ha := nodup_argumentName_iff.2 hn
  refine ⟨_, if_pos ?_, fun f hf => ?_⟩
  · rw [Constructor.parameterNames_ofPlan]
    exact ⟨ha, by simp⟩
  · rw [Constructor.parameterNames_ofPlan, List.zip_map']
    refine lookup_of_nodup ?_ (List.mem_map_of_mem hf)
    rwa [List.map_map]

/-- The expression for a field has the value that is passed on for it. -/
theorem evaluate_valueFor {a : Activation V} {f : Field}
    (ha : f.since ≤ era → a.parameters (argumentName f) = some (arg f)) :
    a.evaluate constant (valueExpression (valueFor era f)) =
      some (passedFor constant arg era f) := by
  by_cases h : f.since ≤ era
  · have hr := ha h
    rw [argumentName] at hr
    rw [valueFor_of_le h, passedFor, if_pos h]
    simp [valueExpression, Activation.evaluate, Activation.read, hr]
  · rw [valueFor, if_neg h, passedFor, if_neg h]
    rfl

/-- Assignments to fields that no parameter hides give each of them its value. -/
theorem exists_foldlM_assign {parameters : String → Option V} {expression : Field → Expression}
    {value : Field → V}
    (hv : ∀ f ∈ fs, ∀ o : Object V,
      (⟨parameters, o⟩ : Activation V).evaluate constant (expression f) = some (value f))
    (hh : ∀ f ∈ fs, parameters (fieldName f) = none) (hn : (fs.map fieldName).Nodup)
      (o : Object V) :
    ∃ o' : Object V, (fs.map fun f => (⟨f.name, expression f⟩ : Assignment)).foldlM
        (Activation.assign constant) ⟨parameters, o⟩ = some ⟨parameters, o'⟩ ∧
      ∀ f ∈ fs, o' (fieldName f) = some (value f) := by
  induction fs generalizing o with
  | nil => exact ⟨o, rfl, by simp⟩
  | cons f r ih =>
    rw [List.map_cons, List.nodup_cons] at hn
    have hw : (⟨parameters, o⟩ : Activation V).assign constant ⟨f.name, expression f⟩ =
        some ⟨parameters, Function.update o (fieldName f) (some (value f))⟩ :=
      Activation.assign_of_none (hv f List.mem_cons_self o) (hh f List.mem_cons_self)
    obtain ⟨o', ho', hr⟩ := ih (fun g hg => hv g (List.mem_cons_of_mem f hg))
      (fun g hg => hh g (List.mem_cons_of_mem f hg)) hn.2
      (Function.update o (fieldName f) (some (value f)))
    have hrun : (List.map (fun f => (⟨f.name, expression f⟩ : Assignment)) (f :: r)).foldlM
        (Activation.assign constant) ⟨parameters, o⟩ = some ⟨parameters, o'⟩ := by
      rw [List.map_cons, List.foldlM_cons, hw]
      exact ho'
    refine ⟨o', hrun, fun g hg => ?_⟩
    rcases List.mem_cons.1 hg with rfl | hg
    · -- the later assignments are to other fields
      have hkeep : o' (fieldName g) =
          Function.update o (fieldName g) (some (value g)) (fieldName g) := by
        refine Activation.fields_foldlM ho' (.inr fun s hs => ?_)
        obtain ⟨k, hk, rfl⟩ := List.mem_map.1 hs
        intro heq
        exact hn.1 (List.mem_map.2 ⟨k, hk, heq⟩)
      rw [hkeep, Function.update_self]
    · exact hr g hg

/-! ## Running the constructor of an era -/

/--
On top of an object that has the values passed on for the inherited fields, the constructor of an
era makes one that has them all, if its parameters hide none of the fields that it assigns.
-/
theorem Constructor.exists_run_planFor (c : Containers) {parent : List V → Option (Object V)}
    {made : Object V} (hn : ((inherited ++ own).map fieldName).Nodup)
    (hh : ∀ f ∈ own, ∀ g ∈ inherited ++ own, fieldName f ≠ argumentName g)
    (hm : parent (inherited.map (passedFor constant arg era)) = some made)
    (hi : ∀ f ∈ inherited, made (fieldName f) = some (passedFor constant arg era f)) :
    ∃ o, (ofPlan c (planFor inherited own era)).run constant parent
        ((providedAt era (inherited ++ own)).map arg) = some o ∧
      ∀ f ∈ inherited ++ own, o (fieldName f) = some (passedFor constant arg era f) := by
  have hsub : (providedAt era (inherited ++ own)).Sublist (inherited ++ own) :=
    List.filter_sublist
  obtain ⟨parameters, hb, hp⟩ := exists_bind_ofPlan c (p := planFor inherited own era) arg
    (hn.sublist (hsub.map fieldName))
  have hv : ∀ f ∈ inherited ++ own, ∀ o : Object V,
      (⟨parameters, o⟩ : Activation V).evaluate constant (valueExpression (valueFor era f)) =
        some (passedFor constant arg era f) := fun f hf o =>
    evaluate_valueFor fun hs => hp f (List.mem_filter.2 ⟨hf, decide_eq_true hs⟩)
  have hpassed : (ofPlan c (planFor inherited own era)).superArguments.mapM
      ((⟨parameters, fun _ => none⟩ : Activation V).evaluate constant) =
        some (inherited.map (passedFor constant arg era)) := by
    rw [superArguments_planFor, List.mapM_map]
    exact Fallible.mapM_some_map fun f hf => hv f (List.mem_append_left own hf) _
  -- a parameter has the argument name of a field, and no field assigned here is called so
  have hhide : ∀ f ∈ own, parameters (fieldName f) = none := by
    intro f hf
    rw [← Option.not_isSome_iff_eq_none, (bind_some hb).2, parameterNames_ofPlan]
    intro hmem
    obtain ⟨g, hg, hgf⟩ := List.mem_map.1 hmem
    exact hh f hf g (hsub.subset hg) hgf.symm
  rw [List.map_append, List.nodup_append'] at hn
  obtain ⟨o, ho, hown⟩ := exists_foldlM_assign
    (fun f hf => hv f (List.mem_append_right inherited hf)) hhide hn.2.1 made
  refine ⟨o, ?_, fun f hf => ?_⟩
  · rw [← assignments_planFor c inherited] at ho
    exact run_of_steps hb hpassed hm ho
  rcases List.mem_append.1 hf with hf | hf
  · -- the constructor assigns to none of the inherited fields
    rw [← hi f hf]
    refine Activation.fields_foldlM ho (.inr fun s hs => ?_)
    obtain ⟨g, hg, rfl⟩ := List.mem_map.1 hs
    intro heq
    exact hn.2.2 (List.mem_map_of_mem hf) (List.mem_map.2 ⟨g, hg, heq⟩)
  · exact hown f hf

/--
Of an object that the constructor of an era makes for all fields, the constructor of the superclass
made whatever it does not assign, and whatever one of its parameters hides.
-/
theorem Constructor.run_planFor_some {parent : List V → Option (Object V)} {args : List V}
    {o : Object V} (h : (ofPlan c (planFor inherited own era)).run constant parent args = some o)
    (hall : providedAt era (inherited ++ own) = inherited ++ own) :
    ((inherited ++ own).map fieldName).Nodup ∧ ∃ passed made, passed.length = inherited.length ∧
      parent passed = some made ∧
        ∀ n, ((∃ g ∈ inherited ++ own, argumentName g = n) ∨ ∀ f ∈ own, fieldName f ≠ n) →
          o n = made n := by
  have hnames : (ofPlan c (planFor inherited own era)).parameterNames =
      (inherited ++ own).map argumentName := by
    rw [parameterNames_ofPlan, ← congrArg (List.map argumentName) hall]; rfl
  obtain ⟨parameters, hb, -⟩ := Option.bind_eq_some_iff.1 h
  have hn := (bind_some hb).1
  rw [hnames, nodup_argumentName_iff] at hn
  obtain ⟨passed, made, hlen, hm, huntouched⟩ := run_untouched h
  rw [superArguments_planFor, List.length_map] at hlen
  refine ⟨hn, passed, made, hlen, hm, fun n hn => huntouched n ?_⟩
  rw [hnames, assignments_planFor]
  exact hn.imp List.mem_map.2 fun hn => List.forall_mem_map.2 hn

end Typewright.Java
