import Typewright.Proofs.Generation.Nesting
import Typewright.Proofs.Generation.Package
import Typewright.Proofs.Generation.Walk
import Typewright.Proofs.Java.Comments

/-!
# Units with and without comments

A generator that writes no comments makes the same units but for the lines of the comments, and for
what those do to the indentation. They do nothing to it where only line feeds end the lines of the
documentation. Elsewhere a documentation text is cut into lines once more after it was made a
comment, and a line that comes of that is no comment any more.

- `Definition.docs`: the documentation of a definition, as far as it is written into its unit.
- `Generator.isDoc_of_mem_fragments`: what the comments of a unit are made of.
- `Generator.exists_generate_of_unitAt`: a schema has units if its sites have, named apart.
- `Generator.generate_withoutComments`: the units of a schema with and without comments.
-/

namespace Typewright

open Java Text

/-- The documentation of a definition and of all that it declares itself. -/
def Definition.docs : Definition → List String
  | .enumeration h vs => h.doc.toList ++ vs.flatMap (·.doc.toList)
  | .record h fs => h.doc.toList ++ fs.flatMap (·.doc.toList)
  | .protocol h fs ms _ =>
    h.doc.toList ++ fs.flatMap (·.doc.toList) ++
      ms.flatMap fun m => m.doc.toList ++ m.parameters.flatMap (·.doc.toList)

/-- Only line feeds end lines in the documentation, and the parameters of messages stay in one. -/
structure Definition.HasPlainDocs (d : Definition) : Prop where
  docs : ∀ doc ∈ d.docs, IsDoc doc
  /-- The documentation of a parameter is written with its name. -/
  parameters : ∀ m ∈ d.messages, ∀ p ∈ m.parameters, NoBreak p.name

namespace Java

/-! ## What comments are made of -/

variable {doc : String} {d : Definition}

theorem comment_mem_ofDoc {doc? : Option String} :
    Fragment.comment doc ∈ Fragment.ofDoc doc? ↔ doc? = some doc := by
  cases doc? <;> simp [Fragment.ofDoc, eq_comm]

theorem comment_mem_classFragments {u : ClassUnit} (h : .comment doc ∈ u.fragments) :
    u.heading.doc = some doc ∨ (∃ f ∈ u.fields, f.doc = some doc) ∨
      ∃ m ∈ u.messages, m.doc = some doc := by
  simpa [ClassUnit.fragments, ClassUnit.memberFragments, FieldDeclaration.fragments,
    Constructor.fragments, Accessor.fragments, AbstractMethod.fragments, CopyMethod.fragments,
    methodFragments, comment_mem_ofDoc, or_assoc] using h

theorem comment_mem_enumFragments {h : Heading} {vs : List EnumValue}
    (hc : .comment doc ∈ enumFragments h vs) : h.doc = some doc ∨ ∃ v ∈ vs, v.doc = some doc := by
  have hvalues : ∀ ws, .comment doc ∈ valueFragments ws → ∃ v ∈ ws, v.doc = some doc := by
    intro ws hmem
    induction ws using valueFragments.induct with
    | case1 => cases hmem
    | case2 v => simpa [valueFragments, comment_mem_ofDoc] using hmem
    | case3 v w r ih =>
      simp only [valueFragments, List.mem_append, comment_mem_ofDoc, List.mem_cons, reduceCtorEq,
        false_or] at hmem
      rcases hmem with hv | hmem
      · exact ⟨v, List.mem_cons_self, hv⟩
      · obtain ⟨u, hu, hdoc⟩ := ih hmem
        exact ⟨u, List.mem_cons_of_mem v hu, hdoc⟩
  simp only [enumFragments, List.mem_append, comment_mem_ofDoc, List.mem_cons, reduceCtorEq,
    false_or, List.mem_map, and_false, exists_false, or_false, List.not_mem_nil] at hc
  refine hc.imp_right fun hc => hvalues vs ?_
  unfold valueSection at hc
  split at hc
  · simp at hc
  · exact hc

/-- The documentation of a class is that of its heading, its own fields and its messages. -/
theorem mem_docs_iff_of_isClass (hd : d.isClass) :
    doc ∈ d.docs ↔ d.heading.doc = some doc ∨ (∃ f ∈ d.fields, f.doc = some doc) ∨
      ∃ m ∈ d.messages, m.doc = some doc ∨ ∃ p ∈ m.parameters, p.doc = some doc := by
  cases d with
  | enumeration h vs => cases hd
  | record h fs =>
    simp [Definition.docs, Definition.heading, Definition.fields, Definition.messages]
  | protocol h fs ms ds =>
    simp [Definition.docs, Definition.heading, Definition.fields, Definition.messages]

/-- The comments of a class are made of documentation in which only line feeds end lines. -/
theorem isDoc_of_mem_classOf {c : Containers} {superclass : Option String} {inherited : List Field}
    (hd : d.HasPlainDocs) {u : ClassUnit} (hu : classOf c superclass inherited d = some (.ok u))
    (h : .comment doc ∈ u.fragments) : IsDoc doc := by
  have hdocs : ∀ s, _ → IsDoc s := fun s hs =>
    hd.docs s ((mem_docs_iff_of_isClass (isClass_of_classOf hu)).2 hs)
  obtain ⟨hheading, hfields, hmessages⟩ := declarations_of_classOf hu
  rcases comment_mem_classFragments h with hh | ⟨f, hf, hfd⟩ | ⟨m, hm, hmd⟩
  · rw [hheading] at hh
    exact hdocs doc (.inl hh)
  · rw [hfields] at hf
    obtain ⟨own, hown, rfl⟩ := List.mem_map.1 hf
    exact hdocs doc (.inr (.inl ⟨own, hown, hfd⟩))
  · rw [hmessages] at hm
    obtain ⟨message, hmessage, rfl⟩ := List.mem_map.1 hm
    -- the comment of a message is put together from its documentation and that of its parameters
    refine isDoc_messageDoc (fun s hs => hdocs s ?_)
      (fun p hp => ⟨hd.parameters message hmessage p hp, fun s hs => hdocs s ?_⟩) doc hmd
    · exact .inr (.inr ⟨message, hmessage, .inl hs⟩)
    · exact .inr (.inr ⟨message, hmessage, .inr ⟨p, hp, hs⟩⟩)

end Java

namespace Generator

variable {g : Generator} {s : Schema} {d : Definition} {superclass : Option String}
  {inherited : List Field} {fragments : List Fragment}

theorem isDoc_of_mem_fragments (hd : d.HasPlainDocs)
    (h : g.fragmentsOf superclass inherited d = .ok fragments) :
    ∀ doc, .comment doc ∈ fragments → IsDoc doc := by
  intro doc hmem
  by_cases hclass : d.isClass
  · obtain ⟨u, hu⟩ := exists_classOf_of_fragmentsOf hclass h
    rw [fragmentsOf_of_classOf hu] at h
    obtain rfl := Except.ok.inj h
    exact isDoc_of_mem_classOf hd hu hmem
  · cases d with
    | enumeration hd' vs =>
      obtain rfl := Except.ok.inj h
      rcases comment_mem_enumFragments hmem with hh | ⟨v, hv, hvd⟩
      · exact hd.docs doc (by simp [Definition.docs, hh])
      · exact hd.docs doc (List.mem_append_right _
          (List.mem_flatMap.2 ⟨v, hv, Option.mem_toList.2 hvd⟩))
    | record => exact absurd rfl hclass
    | protocol => exact absurd rfl hclass

theorem interleaved_fragmentsOf (h : g.fragmentsOf superclass inherited d = .ok fragments) :
    Interleaved fragments := by
  by_cases hclass : d.isClass
  · obtain ⟨u, hu⟩ := exists_classOf_of_fragmentsOf hclass h
    rw [fragmentsOf_of_classOf hu] at h
    obtain rfl := Except.ok.inj h
    exact interleaved_classFragments u
  · cases d with
    | enumeration hd vs =>
      obtain rfl := Except.ok.inj h
      exact interleaved_enumFragments hd vs
    | record => exact absurd rfl hclass
    | protocol => exact absurd rfl hclass

/-! ## Two generators -/

/-- A schema has units if each of its sites has one, and these are named apart. -/
theorem exists_generate_of_unitAt (hu : ∀ x ∈ s.sites, ∃ us, g.unitAt x = .ok us)
    (hn : (g.namesAt s.sites).Nodup) : ∃ units, g.generate s = .ok units := by
  rw [generate_eq_map]
  cases h : g.unitsOfAll none [] [] s.definitions with
  | ok us => exact ⟨_, rfl⟩
  | error e =>
    rcases unitsOfAll_error [] h with ⟨x, hx, he⟩ | ⟨n, -, hdup⟩
    · obtain ⟨us, hus⟩ := hu x hx
      cases hus.symm.trans he
    · exact absurd hn hdup.not_nodup

/-- The generator that differs only in that it writes no comments. -/
def withoutComments (g : Generator) : Generator :=
  { g with settings := { g.settings with addComments := .bool false } }

theorem showsComments_withoutComments (g : Generator) :
    g.withoutComments.settings.showsComments = false := rfl

theorem fragmentsOf_withoutComments (g : Generator) :
    g.withoutComments.fragmentsOf superclass inherited d =
      g.fragmentsOf superclass inherited d := by
  cases d <;> rfl

theorem unitLines_of_showsComments (h : g.settings.showsComments) (fragments : List Fragment) :
    g.unitLines fragments = (markedLines fragments).map (·.2) := by
  rw [map_snd_markedLines, unitLines, shown, if_pos h]

theorem unitLines_withoutComments (g : Generator) (fragments : List Fragment) :
    g.withoutComments.unitLines fragments = codeLines fragments := by
  rw [unitLines, shown, showsComments_withoutComments]; rfl

/-- Without comments the text of a definition is what its code is arranged to. -/
theorem withoutComments_unitAt_ok {x : Site} {us : Units String}
    (h : g.withoutComments.unitAt x = .ok us) :
    ∃ l fragments, g.layout = .ok l ∧
      g.fragmentsOf x.parent? x.inherited x.definition = .ok fragments ∧
      us = [(g.unitName x.definition.name,
        Layout.unlines (l.arrange 0 (codeLines fragments)).1)] := by
  obtain ⟨fragments, text, hf, ht, rfl⟩ := unitOf_ok h
  obtain ⟨l, hl, ht⟩ := laidOut_ok_iff.1 ht
  obtain ⟨-, rfl⟩ := Layout.text_eq_ok_iff.1 ht
  rw [unitLines_withoutComments]
  exact ⟨l, fragments, hl, hf, rfl⟩

/-- Where no comment moves the code of a definition, its code can be laid out by itself. -/
theorem fits_withoutComments {l : Layout} (hc : g.settings.showsComments) (hl : g.layout = .ok l)
    (hf : Interleaved fragments) (h : Undisturbed l 0 fragments) (hfits : g.Fits fragments) :
    g.withoutComments.Fits fragments := by
  obtain ⟨l', hl', hi⟩ := hfits
  obtain rfl := Except.ok.inj (hl.symm.trans hl')
  refine ⟨l, hl, fun n hn => hi n ?_⟩
  rw [unitLines_of_showsComments hc]
  rw [unitLines_withoutComments] at hn
  exact mem_levels_of_undisturbed hf h hn

theorem undisturbed_of_hasPlainDocs {l : Layout} (hl : g.layout = .ok l) (hd : d.HasPlainDocs)
    (hf : g.fragmentsOf superclass inherited d = .ok fragments) : Undisturbed l 0 fragments := by
  obtain ⟨indent, -, hi⟩ := Fallible.bind_ok hl
  obtain rfl := Except.ok.inj hi
  exact undisturbed_of_isDoc (isDoc_of_mem_fragments hd hf) 0

theorem exists_generate_withoutComments_iff {units : Units String} (h : g.generate s = .ok units) :
    (∃ plain, g.withoutComments.generate s = .ok plain) ↔ g.withoutComments.FitsAll s := by
  obtain ⟨us, hus, hnames, -⟩ := generate_ok h
  constructor
  · rintro ⟨plain, hplain⟩
    obtain ⟨vs, hvs, -, -⟩ := generate_ok hplain
    exact fitsAll_of_unitsAt hvs
  · intro hfits
    -- the names differ with comments and without; only the levels can be in the way
    refine exists_generate_of_unitAt (fun x hx => ?_) (hus.names ▸ hnames)
    obtain ⟨u, hu⟩ := hus.exists_of_mem hx
    obtain ⟨fragments, hf, -⟩ := exists_unitAt_iff.1 ⟨_, hu⟩
    rw [← fragmentsOf_withoutComments] at hf
    exact exists_unitAt_iff.2 ⟨fragments, hf, hfits x hx fragments hf⟩

/--
A schema that has units has the same without comments, up to the layout, as soon as its code can be
indented; no code stands further in than it did where only line feeds end the lines of the
documentation. The code of a unit is laid out alike in both exactly if no comment moves the code
after it, or levels have no text; where only line feeds end the lines of the documentation, it
always is.
-/
theorem generate_withoutComments {units : Units String} (hc : g.settings.showsComments)
    (h : g.generate s = .ok units) :
    ((∃ plain, g.withoutComments.generate s = .ok plain) ↔ g.withoutComments.FitsAll s) ∧
    ((∀ x ∈ s.sites, x.definition.HasPlainDocs) →
      ∃ plain, g.withoutComments.generate s = .ok plain) ∧
    (∀ plain, g.withoutComments.generate s = .ok plain → plain.names = units.names) ∧
      ∀ x ∈ s.sites, ∃ l fragments,
        g.layout = .ok l ∧
        g.fragmentsOf x.parent? x.inherited x.definition = .ok fragments ∧
        (g.unitName x.definition.name, g.packageLine s.space ++ "\n" ++
          Layout.unlines (l.arrange 0 ((markedLines fragments).map (·.2))).1) ∈ units ∧
        (∀ plain, g.withoutComments.generate s = .ok plain →
          (g.unitName x.definition.name, g.packageLine s.space ++ "\n" ++
            Layout.unlines (l.arrange 0 (codeLines fragments)).1) ∈ plain) ∧
        (keptLines l 0 fragments = (l.arrange 0 (codeLines fragments)).1 ↔
          l.indent = "" ∨ Undisturbed l 0 fragments) ∧
        (x.definition.HasPlainDocs →
          keptLines l 0 fragments = (l.arrange 0 (codeLines fragments)).1) := by
  have hfits := exists_generate_withoutComments_iff h
  obtain ⟨us, hus, -⟩ := generate_ok h
  refine ⟨hfits, fun hd => hfits.2 fun x hx fragments hf => ?_, fun plain hplain => ?_,
    fun x hx => ?_⟩
  · rw [fragmentsOf_withoutComments] at hf
    obtain ⟨l, hl, hi⟩ := fitsAll_of_unitsAt hus x hx fragments hf
    exact fits_withoutComments hc hl (interleaved_fragmentsOf hf)
      (undisturbed_of_hasPlainDocs hl (hd x hx) hf) ⟨l, hl, hi⟩
  · rw [names_of_renders (renders_of_generate h), names_of_renders (renders_of_generate hplain)]
    rfl
  obtain ⟨text, hu, hmem⟩ := mem_of_generate h hx
  obtain ⟨fragments, text, hf, ht, heq⟩ := unitOf_ok hu
  obtain ⟨-, rfl⟩ := Prod.mk.inj (List.singleton_inj.1 heq)
  obtain ⟨l, hl, ht⟩ := laidOut_ok_iff.1 ht
  obtain ⟨-, rfl⟩ := Layout.text_eq_ok_iff.1 ht
  have hinterleaved := interleaved_fragmentsOf hf
  refine ⟨l, fragments, hl, hf, unitLines_of_showsComments hc fragments ▸ hmem,
    fun plain hplain => ?_, keptLines_iff hinterleaved, fun hd =>
      keptLines_of_undisturbed hinterleaved (undisturbed_of_hasPlainDocs hl hd hf)⟩
  obtain ⟨plainText, hv, hplainMem⟩ := mem_of_generate hplain hx
  obtain ⟨l', fragments', hl', hf', heq⟩ := withoutComments_unitAt_ok hv
  obtain rfl := Except.ok.inj (hl.symm.trans hl')
  obtain rfl := Except.ok.inj (hf.symm.trans hf')
  obtain ⟨-, rfl⟩ := Prod.mk.inj (List.singleton_inj.1 heq)
  exact hplainMem

/-- Braces in the documentation of the sample protocol leave its code where it is. -/
theorem generate_withoutComments_documented :
    ∃ units plain l fragments,
      (counted 4).generate ⟨"n", [.documented]⟩ = .ok units ∧
      (counted 4).withoutComments.generate ⟨"n", [.documented]⟩ = .ok plain ∧
      (counted 4).fragmentsOf none [] .documented = .ok fragments ∧
      keptLines l 0 fragments = (l.arrange 0 (codeLines fragments)).1 := by
  obtain ⟨units, h⟩ := exists_generate_counted (s := ⟨"n", [.documented]⟩) (by decide) (by decide)
    (by decide) (by decide)
  obtain ⟨-, hexists, -, hsites⟩ := generate_withoutComments rfl h
  obtain ⟨plain, hplain⟩ := hexists (List.forall_mem_singleton.2 ⟨by decide, by decide⟩)
  have hx : (⟨.documented, []⟩ : Site) ∈ (⟨"n", [.documented]⟩ : Schema).sites :=
    List.mem_cons_self
  obtain ⟨l, fragments, -, hf, -, -, -, hkept⟩ := hsites _ hx
  exact ⟨units, plain, l, fragments, h, hplain, hf, hkept ⟨by decide, by decide⟩⟩

end Generator

/-- A record with a field whose documentation has a carriage return and then a closing brace. -/
def Schema.strayBrace : Schema :=
  ⟨"n", [.record ⟨"R", none, []⟩
    [⟨"x", ⟨"int", .single, false⟩, .zero, none, some "a\r\x7d"⟩]]⟩

namespace Generator

/-- Nothing is found wrong with that record, but the comment of its field moves the code. -/
theorem comment_moves_code :
    (counted 4).review Schema.strayBrace = .ok [] ∧
      (∃ units, (counted 4).generate Schema.strayBrace = .ok units) ∧
      ∃ x ∈ Schema.strayBrace.sites, ∃ l fragments, (counted 4).layout = .ok l ∧
        (counted 4).fragmentsOf x.parent? x.inherited x.definition = .ok fragments ∧
        keptLines l 0 fragments ≠ (l.arrange 0 (codeLines fragments)).1 := by
  have hfits : (counted 4).FitsAll Schema.strayBrace := by
    refine List.forall_mem_singleton.2 fun fragments hf => ⟨_, rfl, ?_⟩
    obtain rfl := Except.ok.inj hf
    decide +kernel
  refine ⟨rfl, exists_generate (by decide) (by decide) (by decide) hfits, _, List.mem_cons_self,
    _, _, rfl, rfl, fun hkept => ?_⟩
  -- the brace closes the block of the class, so the field stands at the level of the header
  have hmoved := (keptLines_iff (interleaved_classFragments _)).1 hkept
  revert hmoved
  decide +kernel

end Generator

end Typewright
