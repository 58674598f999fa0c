import Typewright.Proofs.Fallible
import Typewright.Proofs.Text.WrittenLines
import Typewright.Skeleton.Shipped

/-!
# Filling in skeletons

What a piece of a skeleton comes to where all that it refers to is bound. Several pieces give their
texts one after the other, and a repetition gives those of its items in order, each with the place
of the item at hand.

- `Skeleton.fillAll_cons`: the texts of several pieces.
- `Skeleton.fill_each`: the text of a repetition that has items.
- `Skeleton.fill_lines`: texts on lines of their own.
-/

namespace Typewright.Skeleton

variable {env : Context} {isLast : Bool} {r : Ref}

theorem fillAll_cons {p : Piece} {ps : List Piece} {s t : String} (hp : p.fill env isLast = .ok s)
    (hps : fillAll env isLast ps = .ok t) : fillAll env isLast (p :: ps) = .ok (s ++ t) := by
  rw [fillAll, hp, hps]
  rfl

theorem fillAll_singleton {p : Piece} {s : String} (hp : p.fill env isLast = .ok s) :
    fillAll env isLast [p] = .ok s := by
  have hnil : fillAll env isLast [] = .ok "" := by rw [fillAll]
  have h := fillAll_cons hp hnil
  rwa [String.append_empty] at h

theorem fill_text (s : String) : (Piece.text s).fill env isLast = .ok s := by
  rw [Piece.fill]

theorem fill_value {j : Json} (hr : r.value env = .ok j) :
    (Piece.value r).fill env isLast = .ok j.text := by
  rw [Piece.fill, hr]
  rfl

theorem fill_comment {s : String} (hr : r.value env = .ok (.str s)) (hs : s ≠ "") :
    (Piece.comment r).fill env isLast = .ok (Java.docComment s) := by
  have hset : (Json.str s).isTruthy = true := by simpa [Json.isTruthy] using hs
  rw [Piece.fill, hr]
  show Except.ok (Skeleton.comment (.str s)) = _
  rw [Skeleton.comment, if_pos hset]
  rfl

theorem fill_choice {yes no : List Piece} {j : Json} (hr : r.value env = .ok j) :
    (Piece.choice r yes no).fill env isLast =
      if j.isTruthy then fillAll env isLast yes else fillAll env isLast no := by
  rw [Piece.fill, hr]
  rfl

/-! ## Repetitions -/

theorem fill_each_nil {item : String} {body otherwise : List Piece}
    (hr : r.value env = .ok (.arr [])) :
    (Piece.each item r body otherwise).fill env isLast = fillAll env isLast otherwise := by
  rw [Piece.fill, hr]
  rfl

/-- A repetition gives the texts of its items in order. -/
theorem fill_each {α : Type} {item : String} {body otherwise : List Piece} {xs : List α}
    {toJson : α → Json} {f : Nat → α → String} (hr : r.value env = .ok (.arr (xs.map toJson)))
    (hne : xs ≠ [])
    (h : ∀ i x, fillAll ((item, toJson x) :: env) (i + 1 == xs.length) body = .ok (f i x)) :
    (Piece.each item r body otherwise).fill env isLast = .ok (String.join (xs.mapIdx f)) := by
  have hitems : (r.value env >>= items) = .ok (xs.map toJson) := by rw [hr]; rfl
  have hempty : (xs.map toJson).isEmpty = false := by simpa using hne
  have htexts : ((xs.map toJson).zipIdx.mapM fun y =>
      fillAll ((item, y.1) :: env) (y.2 + 1 == (xs.map toJson).length) body) =
        .ok (xs.mapIdx f) := by
    rw [Fallible.mapM_ok_iff, List.zipIdx_map, List.forall₂_map_left_iff,
      List.mapIdx_eq_zipIdx_map, List.forall₂_map_right_iff, List.forall₂_same, List.length_map]
    exact fun x _ => h x.2 x.1
  rw [Piece.fill, hitems]
  show (if (xs.map toJson).isEmpty then _ else
    ((xs.map toJson).zipIdx.mapM fun y =>
      fillAll ((item, y.1) :: env) (y.2 + 1 == (xs.map toJson).length) body) >>= fun texts =>
        .ok (String.join texts)) = _
  rw [hempty, if_neg Bool.false_ne_true, htexts]
  rfl

theorem mapIdx_const {α β : Type} (f : α → β) (xs : List α) :
    xs.mapIdx (fun _ => f) = xs.map f := by
  induction xs with
  | nil => rfl
  | cons x r ih => rw [List.mapIdx_cons, ih, List.map_cons]

/-- Texts on lines of their own. -/
theorem fill_lines {texts : List String} (hr : r.value env = .ok (.arr (texts.map .str))) :
    (lines r).fill env isLast = .ok (Layout.unlines texts) := by
  rw [lines]
  cases texts with
  | nil =>
    rw [fill_each_nil hr, fillAll]
    rfl
  | cons s ss =>
    have hline (i : Nat) (t : String) :
        fillAll (("line", .str t) :: env) (i + 1 == (s :: ss).length) (line (.name "line")) =
          .ok (t ++ "\n") := by
      have hvalue : (Ref.name "line").value (("line", .str t) :: env) = .ok (.str t) := rfl
      exact fillAll_cons (fill_value hvalue) (fillAll_singleton (fill_text "\n"))
    rw [fill_each hr (List.cons_ne_nil s ss) hline, mapIdx_const]
    rfl

end Typewright.Skeleton
