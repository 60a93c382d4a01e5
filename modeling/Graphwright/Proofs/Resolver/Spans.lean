import Graphwright.Proofs.Module.Spans
import Graphwright.Resolver.Interface

/-!
# Imported names in resolver interfaces

The text of an interface is cut into spans. All imported names in it are the symbols' own: the
interface asks the registry for none, and so its text does not depend on one (`Interface.text_eq`).
-/
namespace Graphwright.Resolver

open Graphwright.Document Graphwright.Module Graphwright.Types

/-! ## Imported symbols -/

def anySymbol : Symbol := ("Any", "typing")

def protocolSymbol : Symbol := ("Protocol", "typing")

def infoSymbol : Symbol := ("GraphQLResolveInfo", "graphql")

/-- The types that are interfaces or unions. -/
def abstractSymbol : Symbol := ("GraphQLAbstractType", "graphql")

def initialSymbols : List Symbol := [annotationsSymbol, anySymbol, protocolSymbol, infoSymbol]

def ownSpan (symbol : Symbol) : Span := .own symbol.1 [symbol]

/-! ## Spans -/

section Spans

variable (o : Origins)

def Parameter.spans (p : Parameter) : List Span :=
  .plain (p.name ++ ": ") :: resolvedSpans o p.type ++
    [.plain (if p.optional then " = None" else "")]

/-- The spans of all parameters of a method, for objects of a type that is given by its spans. -/
def Method.parameterSpans (parent : List Span) (m : Method) : List (List Span) :=
  [[.plain "self"], .plain "parent: " :: parent, [.plain "info: ", ownSpan infoSymbol]] ++
    if m.parameters.isEmpty then [] else [.plain "*"] :: m.parameters.map (Parameter.spans o)

/-- The spans of the lines of a method. The lines are arranged by the length of their text. -/
def Method.spans (style : Style) (parent : List Span) (m : Method) : List (List Span) :=
  let doc := m.doc?.getD []
  let keyword := if style.isAsync then "async def" else "def"
  let parameters := m.parameterSpans o parent
  let tail := if doc.isEmpty && !style.isInterface then " ..." else ""
  let opening : Span := .plain (indentation ++ keyword ++ " " ++ m.name ++ "(")
  let closing := .plain ") -> " :: resolvedSpans o m.result ++ [.plain (":" ++ tail)]
  let line := opening :: [.plain ", "].intercalate parameters ++ closing
  let signature :=
    if m.parameters.isEmpty && (render {} line).length ≤ maxLineLength then [line]
    else
      [opening] :: (parameters.map fun p => .plain (indentation ++ indentation) :: p ++
        [.plain ","]) ++ [.plain indentation :: closing]
  signature ++ plainLines doc ++
    if style.isInterface then [[.plain (indentation ++ indentation ++ "raise NotImplementedError")]]
    else []

/-- The spans of the method that tells the type of an object. -/
def resolveTypeSpans : List (List Span) :=
  [.plain (indentation ++ "def resolve_type(")] ::
    ([[.plain "self,"], [.plain "obj: ", ownSpan anySymbol, .plain ","],
      [.plain "info: ", ownSpan infoSymbol, .plain ","],
      [.plain "abstract_type: ", ownSpan abstractSymbol, .plain ","]].map
        (.plain (indentation ++ indentation) :: ·)) ++
    [[.plain (indentation ++ ") -> "), ownSpan optionalSymbol, .plain "[str]: ..."]]

def Interface.parentSpans (i : Interface) : List Span :=
  match i.parent? with
  | some t => [o.span t.imports t.text]
  | none => []

def Interface.spans (isAsync : Bool) (i : Interface) : List Span :=
  let blocks := (if i.tellsType then [resolveTypeSpans] else []) ++
    i.methods.map (Method.spans o (i.style isAsync) (i.parentSpans o))
  [.plain "\n"].intercalate <|
    [.plain ("class " ++ i.name ++ "("), ownSpan protocolSymbol, .plain "):"] ::
      plainLines (i.doc?.getD []) ++ blocks.flatMap ([] :: ·)

def Result.spans (isAsync : Bool) (r : Result) : List (List Span) :=
  r.interfaces.map (Interface.spans o isAsync)

end Spans

/-! ## Their text -/

section Texts

variable (r : Registry) (o : Origins)

@[simp] theorem text_ownSpan (symbol : Symbol) : (ownSpan symbol).text r = symbol.1 := rfl

theorem Parameter.render_spans (p : Parameter) : render r (p.spans o) = p.text := by
  unfold spans text
  cases p.optional <;> simp [String.append_assoc]

theorem Method.render_parameterSpans {parent : List Span} {type : String}
    (hparent : render r parent = type) (m : Method) : (m.parameterSpans o parent).map (render r) =
      ["self", "parent: " ++ type, "info: GraphQLResolveInfo"] ++
        if (m.parameters.map (·.text)).isEmpty then [] else "*" :: m.parameters.map (·.text) := by
  have harguments : render r ∘ Parameter.spans o = (·.text) := funext fun p => p.render_spans r o
  unfold parameterSpans
  rw [List.map_append, apply_ite (List.map (render r)), List.isEmpty_map]
  simp [harguments, hparent, infoSymbol]

theorem Method.render_spans (style : Style) {parent : List Span}
    (hparent : ∀ r, render r parent = style.parent) (m : Method) :
    (m.spans o style parent).map (render r) = m.lines style := by
  have hparameters (r : Registry) := m.render_parameterSpans r o (hparent r)
  unfold spans lines methodLines
  dsimp only
  have hinside : (render r ∘ fun p => .plain (indentation ++ indentation) :: (p ++ [.plain ","])) =
      (fun p => indentation ++ indentation ++ p ++ ",") ∘ render r := by
    funext p
    simp [String.append_assoc]
  simp only [List.map_append, apply_ite (List.map (render r)), List.map_cons, List.map_nil,
    render_cons, render_append, render_nil, render_intercalate, List.map_map, List.cons_append,
    hinside]
  rw [← List.map_map, hparameters, hparameters]
  simp [String.append_assoc]

theorem Interface.render_parentSpans (isAsync : Bool) (i : Interface) :
    render r (i.parentSpans o) = (i.style isAsync).parent := by
  unfold parentSpans style
  cases i.parent? <;> simp

/-- **Spans.** The spans of an interface, side by side, are its text. -/
theorem Interface.text_eq (isAsync : Bool) (i : Interface) :
    i.text isAsync = render r (i.spans o isAsync) := by
  have hmethods :
      (i.methods.map (Method.spans o (i.style isAsync) (i.parentSpans o))).map (·.map (render r)) =
      i.methods.map (Method.lines (i.style isAsync)) := by
    rw [List.map_map]
    exact List.map_congr_left fun m _ => m.render_spans r o _ fun r =>
      i.render_parentSpans r o isAsync
  have htells : (if i.tellsType then [resolveTypeSpans] else []).map (·.map (render r)) =
      if i.tellsType then [resolveTypeLines] else [] := by
    split <;> rfl
  have hopening :
      render r [.plain ("class " ++ i.name ++ "("), ownSpan protocolSymbol, .plain "):"] =
      "class " ++ i.name ++ "(Protocol):" := by
    simp [protocolSymbol, String.append_assoc]
  unfold text spans methodBlocks
  dsimp only
  rw [render_intercalate, List.map_append, List.map_cons, hopening, map_render_plainLines,
    ← hmethods, ← htells, ← List.map_append, List.flatMap_map, List.map_flatMap]
  rfl

end Texts

/-! ## The symbols they name -/

section Needs

variable {o : Origins} {known : List Symbol}

theorem within_ownSpan {symbol : Symbol} (h : symbol ∈ known) :
    (ownSpan symbol).Within o known := by
  simpa [ownSpan, Span.Within] using .inl h

theorem Parameter.within_spans (p : Parameter) : Within o p.type.imports (p.spans o) := by
  have htype : Within o p.type.imports (resolvedSpans o p.type) := within_exprSpans o _ _
  simp [spans, htype, Span.Within]

/-- A method names what its types need, and the type of the resolved objects. -/
theorem Method.within_spans {style : Style} {parent : List Span} {m : Method}
    (hparent : Within o known parent) (hinfo : infoSymbol ∈ known) (hneeds : m.needs ⊆ known) :
    ∀ line ∈ m.spans o style parent, Within o known line := by
  have hplain (text : String) : (Span.plain text).Within o known := trivial
  have hresult : Within o known (resolvedSpans o m.result) :=
    (within_exprSpans o _ _).mono fun symbol h => hneeds (List.mem_append_right _ h)
  have hargument : ∀ p ∈ m.parameters, Within o known (p.spans o) := fun p hp =>
    p.within_spans.mono fun symbol h =>
      hneeds (List.mem_append_left _ (List.mem_flatMap.mpr ⟨p, hp, h⟩))
  have hparameters : ∀ line ∈ m.parameterSpans o parent, Within o known line := by
    refine List.forall_mem_append.mpr ⟨by simp [hplain, hparent, within_ownSpan hinfo], ?_⟩
    split
    · exact nofun
    · refine List.forall_mem_cons.mpr ⟨by simp [hplain], fun line hline => ?_⟩
      obtain ⟨p, hp, rfl⟩ := List.mem_map.mp hline
      exact hargument p hp
  unfold spans
  refine List.forall_mem_append.mpr ⟨List.forall_mem_append.mpr ⟨?_, Within.plainLines _⟩, ?_⟩
  · refine iteInduction (motive := fun lines => ∀ line ∈ lines, Within o known line) (fun _ => ?_)
      (fun _ => ?_)
    · simp [hplain, hresult, Within.intercalate hparameters]
    · refine List.forall_mem_append.mpr
        ⟨List.forall_mem_cons.mpr ⟨by simp [hplain], fun line hline => ?_⟩, ?_⟩
      · obtain ⟨p, hp, rfl⟩ := List.mem_map.mp hline
        simp [hplain, hparameters p hp]
      · simp [hplain, hresult]
  · split <;> simp [hplain]

theorem within_resolveTypeSpans (hany : anySymbol ∈ known) (hinfo : infoSymbol ∈ known)
    (habstract : abstractSymbol ∈ known) (hoptional : optionalSymbol ∈ known) :
    ∀ line ∈ resolveTypeSpans, Within o known line := by
  have hplain (text : String) : (Span.plain text).Within o known := trivial
  simp [resolveTypeSpans, hplain, within_ownSpan, hany, hinfo, habstract, hoptional]

/-- **Symbols.** An interface names only symbols that it needs or that every module of resolvers
imports, and what the names in its types stand for. -/
theorem Interface.within_spans (isAsync : Bool) (i : Interface) :
    Within o (initialSymbols ++ i.needs) (i.spans o isAsync) := by
  have hinitial : initialSymbols ⊆ initialSymbols ++ i.needs := List.subset_append_left _ _
  have hplain (text : String) : (Span.plain text).Within o (initialSymbols ++ i.needs) := trivial
  have hprotocol : protocolSymbol ∈ initialSymbols ++ i.needs := hinitial (by decide)
  have hany : anySymbol ∈ initialSymbols ++ i.needs := hinitial (by decide)
  have hinfo : infoSymbol ∈ initialSymbols ++ i.needs := hinitial (by decide)
  have hmethods : i.methods.flatMap (·.needs) ⊆ i.needs := by simp [needs]
  have hparent : Within o (initialSymbols ++ i.needs) (i.parentSpans o) := by
    unfold parentSpans
    split
    · rename_i t ht
      have ht : Within o t.imports [o.span t.imports t.text] := by simp [o.within_span]
      exact ht.mono fun symbol h => by simp [needs, *]
    · exact .nil
  refine .intercalate (List.forall_mem_cons.mpr
    ⟨?_, List.forall_mem_append.mpr ⟨Within.plainLines _, ?_⟩⟩)
  · simp [hplain, within_ownSpan hprotocol]
  · rw [List.flatMap_append]
    refine List.forall_mem_append.mpr ⟨?_, fun line hline => ?_⟩
    · split
      · rename_i htells
        have habstract : abstractSymbol ∈ initialSymbols ++ i.needs := by
          simp [needs, htells, abstractSymbol]
        have hoptional : optionalSymbol ∈ initialSymbols ++ i.needs := by simp [needs, htells]
        simpa using within_resolveTypeSpans (o := o) hany hinfo habstract hoptional
      · simp
    · rw [List.flatMap_map] at hline
      obtain ⟨m, hm, hline⟩ := List.mem_flatMap.mp hline
      rcases List.mem_cons.mp hline with rfl | hline
      · exact .nil
      · have hneeds : m.needs ⊆ initialSymbols ++ i.needs := fun symbol h =>
          List.mem_append_right _ (hmethods (List.mem_flatMap.mpr ⟨m, hm, h⟩))
        exact m.within_spans hparent hinfo hneeds line hline

end Needs

end Graphwright.Resolver
