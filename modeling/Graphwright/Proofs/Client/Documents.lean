import Graphwright.Proofs.Client.FirstUse
import Graphwright.Proofs.Client.Helpers
import Graphwright.Proofs.Module.TripleQuoted

/-!
# Documents in a client

The constant of a helper is a literal between triple quotes, alone or as the argument of a call that
parses it. What a running client reads from it is the document of the operation: the printed
operation and the fragments that it reaches. No printed definition ends in a quote, so the document
stands there as it is, on lines of its own.

* `not_endsQuoted_definition`: a printed operation or fragment does not end in a quote.
* `constants_hold_documents`: literals are read back, and so are the documents of all helpers.
-/
namespace Graphwright.Client

open Graphwright.Document Graphwright.Module

/-! ## Ends of documents -/

def EndsQuoted (s : String) : Prop := s.toList.getLast? = some '"'

instance (s : String) : Decidable (EndsQuoted s) :=
  inferInstanceAs (Decidable (s.toList.getLast? = some '"'))

theorem not_endsQuoted_append {s t : String} (hs : ¬ EndsQuoted s) (ht : ¬ EndsQuoted t) :
    ¬ EndsQuoted (s ++ t) := by
  unfold EndsQuoted at *
  rw [String.toList_append, List.getLast?_append]
  cases h : t.toList.getLast? with
  | none => simpa using hs
  | some c => simpa [h] using ht

/-- A text behind which something else stands does not end in a quote if that does not. -/
theorem not_endsQuoted_append_right (s : String) {t : String} (ht : ¬ EndsQuoted t) (hne : t ≠ "") :
    ¬ EndsQuoted (s ++ t) := by
  unfold EndsQuoted at *
  rw [String.toList_append, List.getLast?_append]
  cases h : t.toList.getLast? with
  | none => exact absurd (by simpa using h) hne
  | some c => simpa [h] using ht

theorem not_endsQuoted_wrap (before text : String) {after : String} (h : ¬ EndsQuoted after)
    (hne : after ≠ "") : ¬ EndsQuoted (Print.wrap before text after) := by
  unfold Print.wrap
  split
  · decide
  · exact not_endsQuoted_append_right _ h hne

theorem not_endsQuoted_selectionBlock (items : List String) :
    ¬ EndsQuoted (Print.selectionBlock items) := by
  unfold Print.selectionBlock
  split
  · decide
  · exact not_endsQuoted_wrap _ _ (by decide) (by decide)

/-- Neither operations nor fragments are printed with a quote at their end. -/
theorem not_endsQuoted_definition {o : NamedOperation} {found : List Fragment} {x : Definition}
    (hx : x ∈ o.held found) : ¬ EndsQuoted (Print.definition x) := by
  have hblank : ∀ s, ¬ EndsQuoted (s ++ " ") := fun s =>
    not_endsQuoted_append_right s (by decide) (by decide)
  rcases List.mem_cons.mp hx with rfl | hx
  · refine not_endsQuoted_append ?_ (not_endsQuoted_selectionBlock _)
    split
    · decide
    · exact hblank _
  · obtain ⟨f, -, rfl⟩ := List.mem_map.mp hx
    refine not_endsQuoted_append (not_endsQuoted_append (hblank _) ?_)
      (not_endsQuoted_selectionBlock _)
    exact not_endsQuoted_wrap _ _ (by decide) (by decide)

theorem not_endsQuoted_intercalate {ts : List String} (h : ∀ t ∈ ts, ¬ EndsQuoted t) :
    ¬ EndsQuoted ("\n\n".intercalate ts) := by
  induction ts with
  | nil => decide
  | cons t rest ih =>
    cases rest with
    | nil => simpa using h t List.mem_cons_self
    | cons u rest =>
      rw [String.intercalate_cons_cons]
      refine not_endsQuoted_append ?_ (ih fun v hv => h v (List.mem_cons_of_mem _ hv))
      exact not_endsQuoted_append_right _ (by decide) (by decide)

/-! ## Constants -/

/-- The constant of a helper holds a text: it is assigned a literal, perhaps as the argument of a
call, and the literal reads as the text on lines of its own. -/
structure Helper.Holds (mode : DocumentMode) (x : Helper) (text : String) : Prop where
  assigned : ∃ opening closing more,
    (opening, closing) = (if mode = .parsed then ("parse(", ")") else ("", "")) ∧
      x.blocks mode = (x.reference ++ " = " ++ (opening ++ tripleQuoted text ++ closing)) :: more
  reads : '\r' ∉ text.toList → '\x00' ∉ text.toList → ∀ rest, '\x00' ∉ rest →
    readTripleQuoted ((tripleQuoted text).toList ++ rest) =
      some ('\n' :: text.toList ++ ['\n'], Text.unifyLineEnds rest)

theorem holds_of_document {mode : DocumentMode} {x : Helper} {text : String}
    (h : x.document? = some text) (hend : ¬ EndsQuoted text) : x.Holds mode text where
  assigned := by
    have hblocks : ∃ more,
        x.blocks mode = (x.reference ++ " = " ++ Helper.documentValue mode text) :: more := by
      rw [Helper.blocks, h]
      exact ⟨_, rfl⟩
    obtain ⟨more, hmore⟩ := hblocks
    rw [hmore, Helper.documentValue]
    by_cases hmode : mode = .parsed
    · exact ⟨"parse(", ")", more, (if_pos hmode).symm, by rw [if_pos hmode]⟩
    · refine ⟨"", "", more, (if_neg hmode).symm, ?_⟩
      rw [if_neg hmode, String.empty_append, String.append_empty]
  reads hr h0 rest hrest := by
    have hguard : guardOf text.toList = [] := if_neg hend
    rw [readTripleQuoted_append hr h0 hrest, hguard, List.append_nil]

/-- **Documents.** A text between triple quotes is read back: the literal ends where it was ended,
and gives the text on lines of its own, with a blank behind it if it ends in a quote. In a client
that holds its documents itself, the constant of every helper is such a literal for the document of
its operation, the operation and its fragments as they are printed. -/
theorem constants_hold_documents :
    (∀ (t : String) (rest : List Char), '\r' ∉ t.toList → '\x00' ∉ t.toList → '\x00' ∉ rest →
      readTripleQuoted ((tripleQuoted t).toList ++ rest) =
        some ('\n' :: t.toList ++ (if t.toList.getLast? = some '"' then [' '] else []) ++ ['\n'],
          Text.unifyLineEnds rest)) ∧
    ∀ (s : Schema) (ds : List Document) (o : Options) (path : String) (w w₁ : List Warning)
      (p : Part), (part s (Document.concat ds) o path).run w = .ok p w₁ →
      o.documentMode ≠ .external →
      ∃ context hs, contextOf o none = .ok context ∧
        (planOf s (Document.concat ds) o context).helpers = .ok hs ∧
        p.extras = [textOf o.documentMode hs] ∧
        hs.map (·.operation) = namedOperations (Document.concat ds) ∧
        ∀ x ∈ hs, ∃ found, x.operation.fragments (fragmentsOf (Document.concat ds)) = .ok found ∧
          x.Holds o.documentMode
            ("\n\n".intercalate ((x.operation.held found).map Print.definition)) := by
  refine ⟨fun t rest hr h0 hrest => readTripleQuoted_append hr h0 hrest, ?_⟩
  intro s ds o path w w₁ p h hmode
  obtain ⟨package, context, hs, -, hc, hh, rfl, -⟩ := part_ok.mp h
  refine ⟨context, hs, hc, hh, rfl, operations_helpersFrom hh, fun x hx => ?_⟩
  have hdocument : some <$> x.operation.documentText (fragmentsOf (Document.concat ds)) =
      .ok x.document? :=
    (if_neg hmode).symm.trans (documentOf_helpersFrom hh x hx)
  cases hf : x.operation.fragments (fragmentsOf (Document.concat ds)) with
  | error e =>
    rw [NamedOperation.documentText_of_error hf] at hdocument
    cases hdocument
  | ok found =>
    rw [NamedOperation.documentText_of_ok hf] at hdocument
    refine ⟨found, rfl, holds_of_document (Except.ok.inj hdocument).symm
      (not_endsQuoted_intercalate ?_)⟩
    rintro t ht
    obtain ⟨d, hd, rfl⟩ := List.mem_map.mp ht
    exact not_endsQuoted_definition hd

/-- A query with a block of text that holds three quotes and ends in a backslash. -/
def quotingQuery : Operation where
  name? := some "Q"
  selections := [.field none "x" [("t", .string "a \"\"\" b\\" true)] [] none]

theorem constants_hold_documents_quotingQuery :
    let ds : List Document := [⟨[.operation quotingQuery]⟩]
    let text := "query Q \x7b\n  x(t: \"\"\"\n  a \\\"\"\" b\\\n  \"\"\")\n\x7d"
    (readTripleQuoted ((tripleQuoted "\\\"\"\"\"").toList ++ [')']) =
      some ("\n\\\"\"\"\" \n".toList, [')'])) ∧
    ∃ p w hs, (part oneField (Document.concat ds) { documentMode := .parsed } "sdk.py").run [] =
      .ok p w ∧ p.extras = [textOf .parsed hs] ∧ ∃ x ∈ hs, x.Holds .parsed text ∧
        readTripleQuoted ((tripleQuoted text).toList ++ [')']) =
          some ('\n' :: text.toList ++ ['\n'], [')']) := by
  intro ds text
  refine ⟨constants_hold_documents.1 _ [')'] (by decide) (by decide) (by decide), ?_⟩
  let o : Options := { documentMode := .parsed }
  let c : Plan := planOf oneField (Document.concat ds) o ⟨headRegistry o none, "", ""⟩
  have hspreads : ∀ o ∈ c.operations, spreads o.operation.selections = [] := by
    decide
  obtain ⟨hs, hh⟩ := exists_helpers_of_spreads_nil oneField o c.env.context hspreads
  have hp : (part oneField (Document.concat ds) o "sdk.py").run [] = .ok _ _ :=
    part_ok.mpr ⟨"generated", c.env.context, hs, by rfl, rfl, hh, rfl, rfl⟩
  obtain ⟨context, hs', hc, hh', hextras, hops, hholds⟩ :=
    constants_hold_documents.2 oneField ds o "sdk.py" [] _ _ hp (by decide)
  obtain rfl : c.env.context = context := Except.ok.inj hc
  obtain rfl : hs = hs' := Except.ok.inj (hh.symm.trans hh')
  obtain ⟨x, hx, hxo⟩ := List.mem_map.mp (hops ▸ List.mem_cons_self :
    (⟨"Q", quotingQuery⟩ : NamedOperation) ∈ hs.map (·.operation))
  obtain ⟨found, hfound, hheld⟩ := hholds x hx
  rw [hxo] at hfound hheld
  have hnil : found = [] :=
    Except.ok.inj (hfound.symm.trans (fragments_of_spreads_nil _ (hspreads _ List.mem_cons_self)))
  have htext : "\n\n".intercalate
      ((NamedOperation.held ⟨"Q", quotingQuery⟩ []).map Print.definition) = text := by
    decide
  rw [hnil, htext] at hheld
  exact ⟨_, _, hs, hp, hextras, x, hx, hheld,
    hheld.reads (by decide) (by decide) [')'] (by decide)⟩

end Graphwright.Client
