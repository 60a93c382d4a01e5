import Graphwright.Proofs.Module.Reached

/-!
# One part alone

A module is laid out in two ways. A part by itself is rendered from its own registry, and its
fragments are enclosed while it is laid out. When parts are combined, their registries are merged
into a new one, their fragments are enclosed before, and what is empty is left out once more. For
one part both give the same text (`Part.combine_singleton`), unless something empty comes out of
enclosing its fragments.

The calls that make a registry keep the keys of its imports apart, and a registry with such keys is
what merging it into an empty one gives (`Registry.merge_into_empty`).
-/
namespace Graphwright.Module

namespace Registry

/-- A registry merged into an empty one with the same settings is itself. -/
theorem merge_into_empty {r : Registry} (h : Reached r) :
    (Registry.mk r.separateTyping []).merge r = r := by
  have hempty : ((Registry.mk r.separateTyping []).imports.map (·.key)).Nodup := List.nodup_nil
  rw [merge_of_nodup hempty, List.nil_append, joint_of_nodup h.nodup]

theorem reached_orFresh_none (separate : Bool) : Reached (orFresh none separate) := .empty separate

theorem Reached.recordEach {r : Registry} (h : Reached r) (is : List Import) :
    Reached (is.foldl (fun r i => (r.record i).2) r) := by
  induction is generalizing r with
  | nil => exact h
  | cons i rest ih => exact ih (h.record i)

theorem Reached.qualify {r : Registry} (h : Reached r) (source? : Option String) (asName : String)
    (kind : ImportKind) : Reached (r.qualify source? asName kind).2 := by
  unfold Registry.qualify
  split
  · exact h.recordModule _ _ _
  · exact h

end Registry

/-! ## Layout -/

@[simp]
theorem nonempty_nonempty (texts : List String) : nonempty (nonempty texts) = nonempty texts := by
  simp [nonempty]

/-- A header that is left out for being empty might as well be none. -/
theorem nonempty_filter_toList (header? : Option String) :
    nonempty (header?.filter (· ≠ "")).toList = nonempty header?.toList := by
  cases header? with
  | none => rfl
  | some header =>
    by_cases h : header = ""
    · rw [Option.filter_some_neg (by simpa using h), h]
      rfl
    · rw [Option.filter_some_pos (by simpa using h)]

/-- No section of the fragments is empty, if enclosing them gives something. -/
theorem nonempty_bodySections {wrap? : Option (String → String)}
    (h : ∀ wrap ∈ wrap?, ∀ text, wrap text ≠ "") (body : List String) :
    nonempty (bodySections body wrap?) = bodySections body wrap? := by
  cases wrap? with
  | none => exact nonempty_nonempty body
  | some wrap => simp [bodySections, nonempty, h wrap rfl]

/-- What is laid out is a matter of the nonempty texts. -/
theorem assemble_congr {header? header'? : Option String}
    {imports body body' extras extras' : List String} {wrap? wrap'? : Option (String → String)}
    (hh : nonempty header?.toList = nonempty header'?.toList)
    (hb : bodySections body wrap? = bodySections body' wrap'?)
    (he : nonempty extras = nonempty extras') :
    assemble header? imports body extras wrap? =
      assemble header'? imports body' extras' wrap'? := by
  simp only [assemble, hh, hb, he]

namespace Part

/-- What a part can be when calls make its registry, and its fragments are never lost by enclosing
them. -/
structure IsSound (p : Part) : Prop where
  reached : p.imports.Reached
  wrap : ∀ wrap ∈ p.wrap?, ∀ text, wrap text ≠ ""

/-- **One part.** A module made of one part is the module with this part only. -/
theorem combine_singleton {p : Part} (h : p.IsSound) : combine [p] = p.render := by
  have himports : (join p [p]).imports = p.imports := Registry.merge_into_empty h.reached
  have hheader : (join p [p]).header? = p.header?.filter (· ≠ "") := by
    rw [join, List.filterMap_cons, List.filterMap_nil]
    cases p.header?.filter (· ≠ "") <;> rfl
  have hbody : (join p [p]).body = bodySections p.body p.wrap? := List.append_nil _
  have hextras : (join p [p]).extras = p.extras := List.append_nil _
  rw [combine, render, render, himports, hheader, hbody, hextras]
  exact assemble_congr (nonempty_filter_toList p.header?) (nonempty_bodySections h.wrap p.body) rfl

end Part

end Graphwright.Module
