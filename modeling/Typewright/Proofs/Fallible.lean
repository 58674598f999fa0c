import Mathlib.Data.List.Forall2

/-!
# Steps that can fail

What is known of the parts of a computation in `Except` when the outcome of the whole is known.

- `Fallible.bind_ok`, `Fallible.bind_error`: one step after another.
- `Fallible.mapM_ok_iff`: the same step on every item succeeds exactly when it does item by item.
- `Fallible.exists_mapM_ok_iff`: it succeeds exactly when it does on each item.
- `Fallible.mapM_mapError`: it commutes with renaming outcomes and faults.
- `Fallible.mapM_error_iff`: it fails at the first item on which the step fails.
- `Fallible.mapM_some_iff`: a partial function on every item.
-/

namespace Typewright

namespace Fallible

variable {ε ε' α β β' : Type}

theorem bind_ok {x : Except ε α} {f : α → Except ε β} {b : β} (h : x >>= f = .ok b) :
    ∃ a, x = .ok a ∧ f a = .ok b := by
  cases x with
  | error e => cases h
  | ok a => exact ⟨a, rfl, h⟩

theorem bind_ok_iff {x : Except ε α} {f : α → Except ε β} {b : β} :
    x >>= f = .ok b ↔ ∃ a, x = .ok a ∧ f a = .ok b := by
  refine ⟨bind_ok, ?_⟩
  rintro ⟨a, rfl, h⟩
  exact h

theorem bind_error {x : Except ε α} {f : α → Except ε β} {e : ε} (h : x >>= f = .error e) :
    x = .error e ∨ ∃ a, x = .ok a ∧ f a = .error e := by
  cases x with
  | error e' => cases h; exact .inl rfl
  | ok a => exact .inr ⟨a, rfl, h⟩

theorem exists_ok_iff {x : Except ε α} : (∃ a, x = .ok a) ↔ ∀ e, x ≠ .error e := by
  cases x <;> simp

theorem map_ok {x : Except ε α} {f : α → β} {b : β} (h : f <$> x = .ok b) :
    ∃ a, x = .ok a ∧ f a = b := by
  cases x with
  | error e => cases h
  | ok a => exact ⟨a, rfl, Except.ok.inj h⟩

theorem map_error {x : Except ε α} {f : α → β} {e : ε} (h : f <$> x = .error e) :
    x = .error e := by
  cases x with
  | error e' => exact congrArg Except.error (Except.error.inj h)
  | ok a => cases h

theorem mapError_of_ok (f : ε → ε') (a : α) : (Except.ok a : Except ε α).mapError f = .ok a :=
  rfl

theorem mapError_of_error (f : ε → ε') (e : ε) :
    (Except.error e : Except ε α).mapError f = .error (f e) :=
  rfl

theorem mapError_ok {x : Except ε α} {f : ε → ε'} {a : α} (h : x.mapError f = .ok a) :
    x = .ok a := by
  cases x with
  | error e => cases h
  | ok a' => exact congrArg Except.ok (Except.ok.inj h)

theorem mapError_ok_iff {x : Except ε α} {f : ε → ε'} {a : α} :
    x.mapError f = .ok a ↔ x = .ok a :=
  ⟨mapError_ok, fun h => h ▸ rfl⟩

theorem mapError_error {x : Except ε α} {f : ε → ε'} {e' : ε'} (h : x.mapError f = .error e') :
    ∃ e, x = .error e ∧ f e = e' := by
  cases x with
  | error e => exact ⟨e, rfl, Except.error.inj h⟩
  | ok a => cases h

theorem mapM_cons_ok {f : α → Except ε β} {x : α} {xs : List α} {y : β} {ys : List β}
    (hx : f x = .ok y) (hxs : xs.mapM f = .ok ys) : (x :: xs).mapM f = .ok (y :: ys) := by
  rw [List.mapM_cons, hx, hxs]; rfl

/-- The step succeeds on all items exactly when it gives the outcomes item by item. -/
theorem mapM_ok_iff {f : α → Except ε β} {xs : List α} {ys : List β} :
    xs.mapM f = .ok ys ↔ List.Forall₂ (fun x y => f x = .ok y) xs ys := by
  induction xs generalizing ys with
  | nil =>
    rw [List.mapM_nil, List.forall₂_nil_left_iff]
    exact ⟨fun h => (Except.ok.inj h).symm, fun h => h ▸ rfl⟩
  | cons x xs ih =>
    constructor
    · intro h
      rw [List.mapM_cons] at h
      obtain ⟨y, hy, h⟩ := bind_ok h
      obtain ⟨zs, hzs, h⟩ := bind_ok h
      cases h
      exact .cons hy (ih.1 hzs)
    · rintro (_ | ⟨hy, hys⟩)
      exact mapM_cons_ok hy (ih.2 hys)

/-- Of lists that are related item by item, each item on the right has its own on the left. -/
theorem exists_of_mem_forall₂ {r : α → β → Prop} {xs : List α} {ys : List β}
    (h : List.Forall₂ r xs ys) {y : β} (hy : y ∈ ys) : ∃ x ∈ xs, r x y := by
  obtain ⟨i, hi, rfl⟩ := List.mem_iff_getElem.1 hy
  have hx : i < xs.length := h.length_eq ▸ hi
  exact ⟨xs[i], List.getElem_mem hx, h.get hx hi⟩

theorem exists_of_mem_mapM {f : α → Except ε β} {xs : List α} {ys : List β}
    (h : xs.mapM f = .ok ys) {y : β} (hy : y ∈ ys) : ∃ x ∈ xs, f x = .ok y :=
  exists_of_mem_forall₂ (mapM_ok_iff.1 h) hy

/-- The step gives all outcomes a property exactly when it gives each item one that has it. -/
theorem exists_mapM_ok_iff {f : α → Except ε β} {p : β → Prop} {xs : List α} :
    (∃ ys, xs.mapM f = .ok ys ∧ ∀ y ∈ ys, p y) ↔ ∀ x ∈ xs, ∃ y, f x = .ok y ∧ p y := by
  induction xs with
  | nil => exact iff_of_true ⟨[], rfl, by simp⟩ (by simp)
  | cons x xs ih =>
    rw [List.forall_mem_cons, ← ih]
    constructor
    · rintro ⟨ys, hys, hp⟩
      obtain _ | ⟨hy, hr⟩ := mapM_ok_iff.1 hys
      obtain ⟨hpy, hpr⟩ := List.forall_mem_cons.1 hp
      exact ⟨⟨_, hy, hpy⟩, _, mapM_ok_iff.2 hr, hpr⟩
    · rintro ⟨⟨y, hy, hpy⟩, ys, hys, hpr⟩
      exact ⟨y :: ys, mapM_cons_ok hy hys, List.forall_mem_cons.2 ⟨hpy, hpr⟩⟩

/-- A step that undoes another gives the items back on which that was used. -/
theorem mapM_map_ok {f : α → Except ε β} {g : β → α} {ys : List β}
    (h : ∀ y ∈ ys, f (g y) = .ok y) : (ys.map g).mapM f = .ok ys := by
  rw [mapM_ok_iff, List.forall₂_map_left_iff, List.forall₂_same]
  exact h

/-- Where a step gives what another gives, outcomes and faults renamed, so it does on all items. -/
theorem mapM_mapError {f : α → Except ε β} {f' : α → Except ε' β'} {r : β → β'} {e : ε → ε'}
    {xs : List α} (h : ∀ x, f' x = r <$> (f x).mapError e) :
    xs.mapM f' = List.map r <$> (xs.mapM f).mapError e := by
  induction xs with
  | nil => rfl
  | cons x xs ih =>
    rw [List.mapM_cons, List.mapM_cons, h, ih]
    cases f x with
    | error _ => rfl
    | ok y => cases xs.mapM f <;> rfl

/-- The step fails with the fault of the first item on which it fails. -/
theorem mapM_error_iff {f : α → Except ε β} {xs : List α} {e : ε} :
    xs.mapM f = .error e ↔
      ∃ done x rest, xs = done ++ x :: rest ∧ (∀ z ∈ done, ∃ y, f z = .ok y) ∧ f x = .error e := by
  induction xs with
  | nil =>
    refine ⟨fun h => (by cases h), ?_⟩
    rintro ⟨done, x, rest, h, -⟩
    simp at h
  | cons x xs ih =>
    constructor
    -- either the first item is at fault, or it is done and the fault is found after it
    · intro h
      rw [List.mapM_cons] at h
      rcases bind_error h with hx | ⟨y, hy, h⟩
      · exact ⟨[], x, xs, rfl, by simp, hx⟩
      rcases bind_error h with hxs | ⟨ys, -, h⟩
      · obtain ⟨done, z, rest, rfl, hdone, hz⟩ := ih.1 hxs
        refine ⟨x :: done, z, rest, rfl, fun w hw => ?_, hz⟩
        rcases List.mem_cons.1 hw with rfl | hw
        · exact ⟨y, hy⟩
        · exact hdone w hw
      · cases h
    · rintro ⟨done, z, rest, h, hdone, hz⟩
      rw [List.mapM_cons]
      cases done with
      | nil =>
        obtain ⟨rfl, rfl⟩ := List.cons.inj h
        rw [hz]; rfl
      | cons w done =>
        obtain ⟨rfl, rfl⟩ := List.cons.inj h
        obtain ⟨y, hy⟩ := hdone x List.mem_cons_self
        rw [hy, ih.2 ⟨done, z, rest, rfl, fun v hv => hdone v (List.mem_cons_of_mem _ hv), hz⟩]
        rfl

/-- A step that gives `g` where `p` holds gives `g` of all items if `p` holds of all of them. -/
theorem mapM_ok_iff_map {f : α → Except ε β} {p : α → Prop} {g : α → β} {xs : List α}
    {ys : List β} (h : ∀ x y, f x = .ok y ↔ p x ∧ y = g x) :
    xs.mapM f = .ok ys ↔ (∀ x ∈ xs, p x) ∧ ys = xs.map g := by
  simp only [mapM_ok_iff, h, List.forall₂_and_left]
  refine and_congr_right fun _ => ?_
  rw [eq_comm, ← List.forall₂_eq_eq_eq, List.forall₂_map_left_iff]
  simp only [eq_comm]

/-- Among partial functions the same holds without faults. -/
theorem mapM_some_iff {f : α → Option β} {xs : List α} {ys : List β} :
    xs.mapM f = some ys ↔ List.Forall₂ (fun x y => f x = some y) xs ys := by
  induction xs generalizing ys with
  | nil =>
    rw [List.mapM_nil, List.forall₂_nil_left_iff]
    exact ⟨fun h => (Option.some.inj h).symm, fun h => h ▸ rfl⟩
  | cons x xs ih =>
    rw [List.mapM_cons]
    constructor
    · intro h
      obtain ⟨y, hy, h⟩ := Option.bind_eq_some_iff.1 h
      obtain ⟨zs, hzs, h⟩ := Option.bind_eq_some_iff.1 h
      cases h
      exact .cons hy (ih.1 hzs)
    · rintro (_ | ⟨hy, hys⟩)
      rw [hy, ih.2 hys]; rfl

/-- Where a partial function gives `g` of every item, it gives `g` of all of them. -/
theorem mapM_some_map {f : α → Option β} {g : α → β} {xs : List α}
    (h : ∀ x ∈ xs, f x = some (g x)) :
    xs.mapM f = some (xs.map g) := by
  rw [mapM_some_iff, List.forall₂_map_right_iff, List.forall₂_same]
  exact h

end Fallible

end Typewright
