import Graphwright.Proofs.Lists
import Graphwright.Proofs.Module.References

/-!
# Imported names in a text

The text of a declaration is cut into spans: some are names of imported symbols, the others are text
that has nothing to do with imports. A name is written in one of three ways. It is asked of the
registry when the text is made (`called`), it was asked of the registry before, for a module that
other names stand behind (`behind`), or it is what the symbol itself is called (`own`).

The spans of a declaration are the same for every registry, and side by side they are its text
(`Declaration.blocks_eq`). They name only symbols that the declaration needs, and what the names in
its types stand for (`Declaration.within_spans`).
-/
namespace Graphwright.Module

open Graphwright.Types (Expr NamedType Resolved Symbol listSymbol optionalSymbol)

/-! ## Spans -/

/-- A span of a text. -/
inductive Span where
  /-- Text without imported names. -/
  | plain (text : String)
  /-- The name that the registry has for a symbol. -/
  | called (symbol : Symbol)
  /-- A name and the symbols that it may stand for, all of which are called so themselves. A name of
  the module's own stands for none. -/
  | own (name : String) (symbols : List Symbol)
  /-- A name that is looked up in a module. -/
  | behind (source : Symbol) (name : String)
  deriving Repr, DecidableEq

namespace Span

def text (r : Registry) : Span → String
  | plain text => text
  | called symbol => r.local symbol
  | own name _ => name
  | behind _ name => name

section Text

variable (r : Registry)

@[simp] theorem text_plain (text : String) : (plain text).text r = text := rfl

@[simp] theorem text_called (symbol : Symbol) : (called symbol).text r = r.local symbol := rfl

@[simp] theorem text_own (name : String) (symbols : List Symbol) :
    (own name symbols).text r = name := rfl

end Text

def symbols : Span → List Symbol
  | plain _ => []
  | called symbol => [symbol]
  | own _ symbols => symbols
  | behind source _ => [source]

end Span

/-- The text of spans side by side. -/
def render (r : Registry) (spans : List Span) : String := String.join (spans.map (Span.text r))

section Render

variable (r : Registry)

@[simp] theorem render_nil : render r [] = "" := rfl

@[simp] theorem render_cons (x : Span) (spans : List Span) :
    render r (x :: spans) = x.text r ++ render r spans :=
  String.join_cons

@[simp] theorem render_append (xs ys : List Span) :
    render r (xs ++ ys) = render r xs ++ render r ys := by
  rw [render, List.map_append, String.join_append]
  rfl

theorem render_plain (text : String) : render r [.plain text] = text := by simp

theorem render_intercalate (separator : String) (lines : List (List Span)) :
    render r ([.plain separator].intercalate lines) =
      separator.intercalate (lines.map (render r)) := by
  induction lines with
  | nil => rfl
  | cons line rest ih =>
    cases rest with
    | nil => simp
    | cons next more =>
      rw [List.intercalate_cons_cons, render_append, render_append, render_plain, ih]
      exact String.intercalate_cons_cons.symm

end Render

/-! ## Lines and classes -/

def plainLines (lines : List String) : List (List Span) := lines.map fun line => [.plain line]

/-- The spans of a class with the sections of its body. -/
def classSpans (opening : List Span) (sections : List (List (List Span))) : List Span :=
  let body := ([[]] : List (List Span)).intercalate (sections.filter (!·.isEmpty))
  [.plain "\n"].intercalate
    (opening :: if body.isEmpty then [[.plain (indentation ++ "pass")]] else body)

section Lines

variable (r : Registry)

@[simp] theorem map_render_plainLines (lines : List String) :
    (plainLines lines).map (render r) = lines := by
  simp [plainLines, Function.comp_def]

/-- Sections are set apart by blank lines before or after they are rendered. -/
theorem spaced_render (sections : List (List (List Span))) :
    spaced (sections.map (·.map (render r))) =
      (([[]] : List (List Span)).intercalate (sections.filter (!·.isEmpty))).map (render r) := by
  have hintercalate (blocks : List (List (List Span))) :
      ([""] : List String).intercalate (blocks.map (·.map (render r))) =
        (([[]] : List (List Span)).intercalate blocks).map (render r) := by
    induction blocks with
    | nil => rfl
    | cons block rest ih =>
      cases rest with
      | nil => simp
      | cons next more =>
        rw [List.map_cons, List.map_cons, List.intercalate_cons_cons, ← List.map_cons, ih,
          List.intercalate_cons_cons, List.map_append, List.map_append]
        rfl
  have hfilter : (sections.map (·.map (render r))).filter (!·.isEmpty) =
      (sections.filter (!·.isEmpty)).map (·.map (render r)) := by
    rw [List.filter_map]
    simp [Function.comp_def]
  rw [spaced, hfilter, hintercalate]

theorem render_classSpans (opening : List Span) (sections : List (List (List Span))) :
    render r (classSpans opening sections) =
      classText (render r opening) (sections.map (·.map (render r))) := by
  unfold classSpans classText
  dsimp only
  rw [render_intercalate, spaced_render, List.map_cons, apply_ite (List.map (render r))]
  simp

end Lines

/-! ## Spans of declarations -/

/-- What the names in the type expressions of a module stand for, next to the symbols that each
expression needs: further symbols, and the module that names of its types are looked up in, with the
text that they begin with. -/
structure Origins where
  symbols : List Symbol := []
  module? : Option (Symbol × String) := none
  deriving Repr

namespace Origins

/-- A name in an expression that needs some symbols. -/
def span (o : Origins) (needs : List Symbol) (name : String) : Span :=
  match o.module?.filter fun m => m.2.toList.isPrefixOf name.toList with
  | some m => .behind m.1 name
  | none => .own name ((needs ++ o.symbols).filter (·.1 = name))

@[simp] theorem text_span (r : Registry) (o : Origins) (needs : List Symbol) (name : String) :
    (o.span needs name).text r = name := by
  unfold span
  split <;> rfl

end Origins

section Spans

variable (o : Origins)

/-- The spans of a type expression that needs some symbols. -/
def exprSpans (needs : List Symbol) : Expr → List Span
  | .name name => [o.span needs name]
  | .list item => o.span needs listSymbol.1 :: .plain "[" :: exprSpans needs item ++ [.plain "]"]
  | .optional inner =>
    o.span needs optionalSymbol.1 :: .plain "[" :: exprSpans needs inner ++ [.plain "]"]

def resolvedSpans (t : Resolved) : List Span := exprSpans o t.imports t.expr

def Annotation.spans : Annotation → List Span
  | type t => resolvedSpans o t
  | sometimes t => .called optionalSymbol :: .plain "[" :: resolvedSpans o t ++ [.plain "]"]
  | literal value => [.called literalSymbol, .plain ("[\"" ++ value ++ "\"]")]

def Attribute.spans (a : Attribute) : List Span :=
  .plain (a.name ++ ": ") :: a.annotation.spans o ++
    if a.isRenamed then
      let default := match a.default? with
        | some value => "default=" ++ value ++ ", "
        | none => ""
      [.plain " = ", .called fieldSymbol, .plain ("(" ++ default ++ "alias=\"" ++ a.key ++ "\")")]
    else
      match a.default? with
      | some value => [.plain (" = " ++ value)]
      | none => []

def Model.spans : Model → List Span
  | mk name description? members =>
    let as := members.map (·.field)
    classSpans [.plain ("class " ++ name ++ "("), .called modelSymbol, .plain "):"]
      [plainLines (docLines description? indentation),
        if hasRenamed as then
          [[.plain (indentation ++ "model_config = "), .called settingsSymbol,
            .plain "(populate_by_name=True)"]]
        else [],
        as.flatMap fun a => (.plain indentation :: a.spans o) ::
          plainLines (docLines a.description? indentation)]

def Entry.spans (e : Entry) : List Span :=
  if e.optional then .called missingSymbol :: .plain "[" :: resolvedSpans o e.type ++ [.plain "]"]
  else resolvedSpans o e.type

def Variables.spans (v : Variables) : List Span :=
  if v.entries.all fun e => Naming.isSafeIdentifier e.key then
    classSpans [.plain ("class " ++ v.name ++ "("), .called mappingSymbol, .plain "):"]
      [v.entries.map fun e => .plain (indentation ++ e.key ++ ": ") :: e.spans o]
  else
    [.plain "\n"].intercalate <|
      [.plain (v.name ++ " = "), .called mappingSymbol, .plain ("(\"" ++ v.name ++ "\", \x7b")] ::
      (v.entries.map fun e =>
        .plain (indentation ++ "\"" ++ e.key ++ "\": ") :: e.spans o ++ [.plain ","]) ++
      [[.plain "\x7d)"]]

/-- The spans of a declaration, one list for each of its texts. -/
def Declaration.spans : Declaration → List (List Span)
  | model m => m.all.map (·.spans o)
  | enum name description? choices =>
    [classSpans [.plain ("class " ++ name ++ "(str, "), .called enumSymbol, .plain "):"]
      [plainLines (docLines description? indentation),
        plainLines (choices.flatMap fun c =>
          (indentation ++ c.name ++ " = \"" ++ c.key ++ "\"") ::
            docLines c.description? indentation)]]
  | union name description? members =>
    let comment := (Text.splitLines (description?.getD "").toList).map commentLine
    let listed := ", ".intercalate (members.map fun m => "\"" ++ m ++ "\"")
    [[.plain "\n"].intercalate
      (plainLines comment ++
        [[.plain (name ++ " = "), .called unionSymbol, .plain ("[" ++ listed ++ "]")]])]
  | mapping v => [v.spans o]

end Spans

/-! ## Their text -/

section Texts

variable (r : Registry) (o : Origins)

theorem render_exprSpans (needs : List Symbol) (e : Expr) :
    render r (exprSpans o needs e) = e.text := by
  induction e with
  | name own => simp [exprSpans, Expr.text]
  | list item ih | optional inner ih =>
    rw [exprSpans, Expr.text, List.cons_append, List.cons_append, render_cons, render_cons,
      render_append, ih, render_plain, Origins.text_span, ← String.append_assoc,
      ← String.append_assoc]
    rfl

@[simp] theorem render_resolvedSpans (t : Resolved) : render r (resolvedSpans o t) = t.text :=
  render_exprSpans ..

@[simp] theorem Annotation.render_spans (a : Annotation) : render r (a.spans o) = a.text r := by
  cases a <;> simp [spans, text, String.append_assoc]

@[simp] theorem Attribute.render_spans (a : Attribute) : render r (a.spans o) = a.text r := by
  unfold spans text
  cases a.isRenamed <;> cases a.default? <;> simp [String.append_assoc]

theorem Model.render_spans (m : Model) : render r (m.spans o) = m.text r := by
  obtain ⟨name, description?, members⟩ := m
  unfold spans text
  dsimp only
  rw [render_classSpans]
  have hfields : ((members.map (·.field)).flatMap fun a =>
      (.plain indentation :: a.spans o) ::
        plainLines (docLines a.description? indentation)).map (render r) =
      (members.map (·.field)).flatMap fun a => (indentation ++ a.text r) ::
        docLines a.description? indentation := by
    simp [List.map_flatMap]
  have hsettings (p : Bool) (line : List Span) : (if p then [line] else []).map (render r) =
      if p then [render r line] else [] := by cases p <;> rfl
  rw [List.map_cons, List.map_cons, List.map_cons, hfields, hsettings]
  simp [String.append_assoc]

@[simp] theorem Entry.render_spans (e : Entry) : render r (e.spans o) = e.text r := by
  unfold spans text
  cases e.optional <;> simp [String.append_assoc]

theorem Variables.render_spans (v : Variables) : render r (v.spans o) = v.text r := by
  unfold spans text
  dsimp only
  split
  · rw [render_classSpans]
    simp [Function.comp_def, String.append_assoc]
  · rw [render_intercalate]
    simp [Function.comp_def, String.append_assoc]

/-- **Spans.** The spans of a declaration, side by side, are its texts. -/
theorem Declaration.blocks_eq (d : Declaration) : d.blocks r = (d.spans o).map (render r) := by
  cases d with
  | model m =>
    rw [blocks, spans, List.map_map]
    exact List.map_congr_left fun below _ => (below.render_spans r o).symm
  | enum name description? choices =>
    rw [blocks, spans, List.map_singleton, render_classSpans]
    simp [String.append_assoc]
  | union name description? members =>
    rw [blocks, spans, List.map_singleton, render_intercalate, List.map_append,
      map_render_plainLines]
    simp [String.append_assoc]
  | mapping v =>
    rw [blocks, spans, List.map_singleton, v.render_spans]

end Texts

/-! ## The symbols they name -/

/-- A span names only symbols from a list and what the names in type expressions stand for. -/
def Span.Within (o : Origins) (known : List Symbol) : Span → Prop
  | plain _ => True
  | called symbol => symbol ∈ known
  | own name symbols => ∀ symbol ∈ symbols, symbol.1 = name ∧ (symbol ∈ known ∨ symbol ∈ o.symbols)
  | behind source name => ∃ start, o.module? = some (source, start) ∧ start.toList <+: name.toList

/-- So do several spans. -/
def Within (o : Origins) (known : List Symbol) (spans : List Span) : Prop :=
  ∀ x ∈ spans, x.Within o known

namespace Within

variable {o : Origins} {known known' : List Symbol}

@[simp] theorem nil : Within o known [] := nofun

@[simp] theorem cons_iff {x : Span} {spans : List Span} :
    Within o known (x :: spans) ↔ x.Within o known ∧ Within o known spans := List.forall_mem_cons

@[simp] theorem append_iff {xs ys : List Span} :
    Within o known (xs ++ ys) ↔ Within o known xs ∧ Within o known ys := List.forall_mem_append

theorem mono {spans : List Span} (hsub : known ⊆ known') (h : Within o known spans) :
    Within o known' spans := by
  intro x hx
  have hx := h x hx
  cases x with
  | plain text => trivial
  | called symbol => exact hsub hx
  | own name symbols => exact fun symbol hsymbol =>
    (hx symbol hsymbol).imp_right (Or.imp_left fun h => hsub h)
  | behind source name => exact hx

theorem intercalate {separator : String} {lines : List (List Span)}
    (h : ∀ line ∈ lines, Within o known line) :
    Within o known ([.plain separator].intercalate lines) :=
  forall_mem_intercalate (by simp [Span.Within]) h

theorem plainLines (lines : List String) : ∀ line ∈ plainLines lines, Within o known line := by
  simp [Module.plainLines, Span.Within]

theorem classSpans {opening : List Span} {sections : List (List (List Span))}
    (hopening : Within o known opening)
    (hsections : ∀ lines ∈ sections, ∀ line ∈ lines, Within o known line) :
    Within o known (classSpans opening sections) := by
  refine intercalate (List.forall_mem_cons.mpr ⟨hopening, ?_⟩)
  split
  · simp [Span.Within]
  · exact forall_mem_intercalate (by simp) fun lines hlines =>
      hsections lines (List.mem_of_mem_filter hlines)

end Within

section Needs

variable (o : Origins)

theorem Origins.within_span (needs : List Symbol) (name : String) :
    (o.span needs name).Within o needs := by
  unfold span
  split
  · rename_i m hm
    obtain ⟨hmodule, hbegins⟩ := Option.filter_eq_some_iff.mp hm
    exact ⟨m.2, hmodule, List.isPrefixOf_iff_prefix.mp hbegins⟩
  · intro symbol hsymbol
    obtain ⟨hsymbol, hname⟩ := List.mem_filter.mp hsymbol
    exact ⟨of_decide_eq_true hname, List.mem_append.mp hsymbol⟩

theorem within_exprSpans (needs : List Symbol) (e : Expr) :
    Within o needs (exprSpans o needs e) := by
  have hplain (text : String) : (Span.plain text).Within o needs := trivial
  induction e with
  | name own => simp [exprSpans, o.within_span]
  | list item ih | optional inner ih => simp [exprSpans, o.within_span, hplain, ih]

theorem Annotation.within_spans (a : Annotation) : Within o a.needs (a.spans o) := by
  cases a with
  | type t => exact within_exprSpans o t.imports t.expr
  | sometimes t =>
    have ht := (within_exprSpans o t.imports t.expr).mono
      (List.subset_append_left t.imports [optionalSymbol])
    simpa [spans, needs, Span.Within, resolvedSpans] using ht
  | literal value => simp [spans, needs, Span.Within]

theorem Attribute.within_spans (a : Attribute) : Within o a.needs (a.spans o) := by
  have hannotation : Within o a.needs (a.annotation.spans o) :=
    (a.annotation.within_spans o).mono (List.subset_append_left _ _)
  have hfield (h : a.isRenamed = true) : fieldSymbol ∈ a.needs := by simp [needs, h]
  unfold spans
  cases hrenamed : a.isRenamed <;> cases a.default? <;>
    simp [Span.Within, hannotation, hfield, hrenamed]

/-- The symbols that the class of a model needs, without those of its members' models. -/
def Model.ownNeeds (m : Model) : List Symbol :=
  modelSymbol :: m.attributes.flatMap (·.needs) ++
    if hasRenamed m.attributes then [settingsSymbol] else []

theorem Model.within_spans (m : Model) : Within o m.ownNeeds (m.spans o) := by
  obtain ⟨name, description?, members⟩ := m
  let m := Model.mk name description? members
  have hsettings (h : hasRenamed m.attributes = true) : settingsSymbol ∈ m.ownNeeds := by
    simp [ownNeeds, h]
  have hfield : ∀ a ∈ m.attributes, Within o m.ownNeeds (a.spans o) := fun a ha =>
    (a.within_spans o).mono fun symbol h =>
      List.mem_append_left _ (List.mem_cons_of_mem _ (List.mem_flatMap.mpr ⟨a, ha, h⟩))
  refine .classSpans (by simp [Span.Within, ownNeeds]) ?_
  simp only [List.forall_mem_cons]
  refine ⟨Within.plainLines _, ?_, ?_, nofun⟩
  · split
    · rename_i h
      simpa [Span.Within] using hsettings h
    · exact nofun
  · intro line hline
    obtain ⟨a, ha, hline⟩ := List.mem_flatMap.mp hline
    rcases List.mem_cons.mp hline with rfl | hline
    · simpa [Span.Within] using hfield a ha
    · exact Within.plainLines _ line hline

/-- The needs of fields are among those of the members they belong to. -/
theorem Model.needs_fields_subset (ms : List Member) :
    (ms.map (·.field)).flatMap (·.needs) ⊆ needsBelow ms := by
  induction ms with
  | nil => exact List.nil_subset _
  | cons x rest ih =>
    have hx : x.field.needs ⊆ needsOf x := by
      cases x with
      | leaf a => exact List.Subset.refl _
      | node a below => exact List.subset_append_right _ _
    rw [List.map_cons, List.flatMap_cons, needsBelow]
    exact List.append_subset.mpr
      ⟨List.subset_append_of_subset_left _ hx, List.subset_append_of_subset_right _ ih⟩

mutual

theorem Model.ownNeeds_subset : ∀ m : Model, ∀ below ∈ m.all, below.ownNeeds ⊆ m.needs
  | mk name description? members, below, hbelow => by
    rw [needs]
    rcases List.mem_append.mp hbelow with hbelow | hbelow
    · have hmembers := ownNeeds_subset_below members below hbelow
      exact List.subset_append_of_subset_left _ (List.subset_cons_of_subset _ hmembers)
    · obtain rfl := List.mem_singleton.mp hbelow
      refine List.append_subset.mpr ⟨?_, List.subset_append_right _ _⟩
      exact List.subset_append_of_subset_left _
        (List.cons_subset_cons _ (needs_fields_subset members))

theorem Model.ownNeeds_subset_member : ∀ x : Member, ∀ below ∈ allOf x, below.ownNeeds ⊆ needsOf x
  | .leaf _ => nofun
  | .node _ m => fun below hbelow =>
    List.subset_append_of_subset_left _ (m.ownNeeds_subset below hbelow)

theorem Model.ownNeeds_subset_below :
    ∀ ms : List Member, ∀ below ∈ allBelow ms, below.ownNeeds ⊆ needsBelow ms
  | [] => nofun
  | x :: rest => fun below hbelow => by
    rw [needsBelow]
    rcases List.mem_append.mp hbelow with hbelow | hbelow
    · exact List.subset_append_of_subset_left _ (ownNeeds_subset_member x below hbelow)
    · exact List.subset_append_of_subset_right _ (ownNeeds_subset_below rest below hbelow)

end

theorem Entry.within_spans (e : Entry) : Within o e.needs (e.spans o) := by
  have htype : Within o e.needs (exprSpans o e.type.imports e.type.expr) :=
    (within_exprSpans o e.type.imports e.type.expr).mono (List.subset_append_left _ _)
  have hmissing (h : e.optional = true) : missingSymbol ∈ e.needs := by simp [needs, h]
  unfold spans
  cases hoptional : e.optional <;> simp [Span.Within, resolvedSpans, htype, hmissing, hoptional]

theorem Variables.within_spans (v : Variables) : Within o v.needs (v.spans o) := by
  have hmapping : mappingSymbol ∈ v.needs := List.mem_cons_self
  have hentry : ∀ e ∈ v.entries, Within o v.needs (e.spans o) := fun e he =>
    (e.within_spans o).mono fun symbol h => List.mem_cons_of_mem _ (List.mem_flatMap.mpr ⟨e, he, h⟩)
  unfold spans
  split
  · refine .classSpans (by simp [Span.Within, hmapping])
      (List.forall_mem_singleton.mpr fun line hline => ?_)
    obtain ⟨e, he, rfl⟩ := List.mem_map.mp hline
    simpa [Span.Within] using hentry e he
  · refine .intercalate (List.forall_mem_cons.mpr
      ⟨by simp [Span.Within, hmapping], fun line hline => ?_⟩)
    rcases List.mem_append.mp hline with hline | hline
    · obtain ⟨e, he, rfl⟩ := List.mem_map.mp hline
      simpa [Span.Within] using hentry e he
    · obtain rfl := List.mem_singleton.mp hline
      simp [Span.Within]

def Declaration.needs : Declaration → List Symbol
  | model m => m.needs
  | enum _ _ _ => [enumSymbol]
  | union _ _ _ => [unionSymbol]
  | mapping v => v.needs

/-- **Symbols.** A declaration names only symbols that it needs, and what the names in its types
stand for. -/
theorem Declaration.within_spans (d : Declaration) :
    ∀ spans ∈ d.spans o, Within o d.needs spans := by
  cases d with
  | model m =>
    intro spans hspans
    obtain ⟨below, hbelow, rfl⟩ := List.mem_map.mp hspans
    exact (below.within_spans o).mono (m.ownNeeds_subset below hbelow)
  | enum name description? choices =>
    refine List.forall_mem_singleton.mpr (.classSpans (by simp [Span.Within, needs]) ?_)
    exact List.forall_mem_cons.mpr
      ⟨Within.plainLines _, List.forall_mem_singleton.mpr (Within.plainLines _)⟩
  | union name description? members =>
    refine List.forall_mem_singleton.mpr
      (.intercalate (List.forall_mem_append.mpr ⟨Within.plainLines _, ?_⟩))
    simp [Span.Within, needs]
  | mapping v => exact List.forall_mem_singleton.mpr (v.within_spans o)

end Needs

end Graphwright.Module
