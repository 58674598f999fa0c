import Typewright.Proofs.Generation.Outcome

/-!
# Units as nested blocks

The indentation of a unit is derived from the ends of its lines alone. For a definition whose names,
types and defaults stay in one line it is that of its blocks, whatever the comments say.

- `Generator.unitOf_nested`: the depths of the lines of a class.
-/

namespace Typewright

namespace Generator

open Java

variable {g : Generator} {superclass : Option String} {inherited : List Field} {d : Definition}

theorem exists_outlineLines_eq (comments : Bool) (u : ClassUnit) :
    ∃ xs, outlineLines comments u.outline = xs ++ [(Part.classEnd, "\x7d")] := by
  have hend : partLines comments (.classEnd, .code "\x7d") = [(.classEnd, "\x7d")] := by
    simp [partLines, Fragment.isComment, isLine_closingBrace.lines]
  unfold ClassUnit.outline outlineLines
  rw [List.flatMap_append, List.flatMap_singleton, hend]
  exact ⟨_, rfl⟩

/-- Lines that end with the end of a class end with a closing brace that is not indented. -/
theorem getLast?_arrange {l : Layout} {xs : List (Part × String)} {depths : List Nat} {n : Nat}
    (h : l.depths 0 ((xs ++ [(Part.classEnd, "\x7d")]).map Prod.snd) = some (depths, n))
    (hp : List.Forall₂ (fun x depth => x.1.StandsAt depth)
      (xs ++ [(Part.classEnd, "\x7d")]) depths) :
    (l.arrange 0 ((xs ++ [(Part.classEnd, "\x7d")]).map Prod.snd)).1.getLast? = some "\x7d" := by
  have hr := List.forall₂_reverse_iff.2 hp
  rw [List.reverse_append, List.reverse_singleton, List.singleton_append,
    List.forall₂_cons_left_iff] at hr
  obtain ⟨d, r, hd, hr, he⟩ := hr
  obtain rfl : depths = r.reverse ++ [d] := by
    rw [← List.reverse_reverse depths, he, List.reverse_cons]
  obtain rfl : d = 0 := hd
  have hlen : r.reverse.length = (xs.map Prod.snd).length := by
    have := hr.length_eq
    simpa using this.symm
  rw [Layout.arrange_of_depths h, List.map_append, List.zipWith_append hlen]
  have htrim : Text.trim "\x7d" = "\x7d" := by decide
  simp [Layout.inset, Text.times_zero, htrim]

/--
The unit of a record or protocol, each part of which stays in one line save the documentation. No
line closes a block where none is open and none is left open at the end, which is the closing brace
of the class; each line stands at a depth at which its part may stand.
-/
theorem unitOf_nested (hclass : d.isClass) (hc : g.containers.IsPlain)
    (hd : d.IsPlain superclass inherited) {us : Units String}
    (h : g.unitOf superclass inherited d = .ok us) :
    ∃ u l depths, classOf g.containers superclass inherited d = some (.ok u) ∧ g.layout = .ok l ∧
      us = [(g.unitName d.name, Layout.unlines (l.arrange 0 (g.unitLines u.fragments)).1)] ∧
      g.unitLines u.fragments =
        (outlineLines g.settings.showsComments u.outline).map Prod.snd ∧
      l.depths 0 (g.unitLines u.fragments) = some (depths, 0) ∧
      (l.arrange 0 (g.unitLines u.fragments)).1.getLast? = some "\x7d" ∧
      List.Forall₂ (fun x depth => x.1.StandsAt depth)
        (outlineLines g.settings.showsComments u.outline) depths := by
  obtain ⟨fragments, text, hf, ht, rfl⟩ := unitOf_ok h
  obtain ⟨u, hu⟩ := exists_classOf_of_fragmentsOf hclass hf
  rw [fragmentsOf_of_classOf hu] at hf
  obtain rfl := Except.ok.inj hf
  obtain ⟨l, hl, ht⟩ := laidOut_ok_iff.1 ht
  obtain ⟨-, rfl⟩ := Layout.text_eq_ok_iff.1 ht
  obtain ⟨indent, -, hi⟩ := Fallible.bind_ok hl
  obtain rfl := Except.ok.inj hi
  obtain ⟨depths, hdepths, hparts⟩ := nested_classOf hc hd hu
  have hlines := map_snd_outlineLines g u.outline
  rw [ClassUnit.map_snd_outline] at hlines
  refine ⟨u, _, depths, hu, hl, rfl, hlines.symm, hlines ▸ hdepths, ?_, hparts⟩
  obtain ⟨xs, hxs⟩ := exists_outlineLines_eq g.settings.showsComments u
  rw [← hlines, hxs]
  rw [hxs] at hdepths hparts
  exact getLast?_arrange hdepths hparts

end Generator

/-- A protocol with a newer field and a message, documented with unbalanced braces. -/
def Definition.documented : Definition :=
  .protocol ⟨"P", some "opens \x7b\nand\x7d", []⟩ [.ofInt "a" [0] none, .ofInt "b" [1] (some "1")]
    [⟨"m", ⟨"int", .single, false⟩, [⟨"x", ⟨"int", .repeated, false⟩, some "\x7b"⟩], none⟩] []

theorem Definition.isPlain_documented : documented.IsPlain none [] := by
  decide

theorem Generator.unitOf_nested_documented :
    ∃ u l depths, Java.classOf .standard none [] .documented = some (.ok u) ∧
      (counted 4).layout = .ok l ∧
      l.depths 0 ((counted 4).unitLines u.fragments) = some (depths, 0) ∧
      List.Forall₂ (fun x depth => x.1.StandsAt depth)
        (Java.outlineLines true u.outline) depths := by
  have hc : (counted 4).containers.IsPlain := ⟨by decide, by decide, by decide⟩
  have hfits := fitsAll_counted (s := ⟨"n", [.documented]⟩) (by decide)
  obtain ⟨us, hus⟩ := (exists_unitAt_iff (x := ⟨.documented, []⟩)).2
    ⟨_, rfl, hfits _ List.mem_cons_self _ rfl⟩
  obtain ⟨u, l, depths, hu, hl, -, -, hdepths, -, hparts⟩ :=
    unitOf_nested rfl hc Definition.isPlain_documented hus
  exact ⟨u, l, depths, hu, hl, hdepths, hparts⟩

end Typewright
