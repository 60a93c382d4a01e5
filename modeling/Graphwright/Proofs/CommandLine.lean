import Graphwright.CommandLine
import Graphwright.Proofs.Files.Change

/-!
# What a command leaves behind

A module is written after all of it has been generated. So a run that fails in any of the stages
before leaves the files as they were, and a run that ends well has changed nothing but the output,
which holds the text that was generated, and the directories around it that were missing
(`run_leaves`). A run that has generated a module but could not save it is the third way to end: it
has changed nothing but directories around the output.
-/
namespace Graphwright.CommandLine

/-! ## The stages of a generation -/

def Request.options (r : Request) (fs : Files) : Except Error Options :=
  match r.config? with
  | some path => fs.loadOptions path
  | none => .ok {}

def Request.hooks (r : Request) : List Hook := r.header?.toList.map Hook.header

/-- All stages of a generation succeed: the schema and the documents are loaded, the generators are
known, the options are loaded, the generators make their parts, and what the hooks have made of them
is a module. Its text is what is generated. -/
def Generates (fs : Files) (r : Request) (text : String) : Prop :=
  ∃ schema documents generators options combined warnings,
    fs.loadSchema r.schema = .ok schema ∧
    fs.loadDocuments r.documents = .ok documents ∧
    Generator.ofNames (r.generators.map (·.name)) = .ok generators ∧
    r.options fs = .ok options ∧
    (combinedText generators schema
      (Document.concat (documents.map (·.document))) options r.output).run [] =
      .ok combined warnings ∧
    text = Hook.run r.hooks r.output combined ∧ Grammar.isModule text

theorem load_eq_ok {fs : Files} {r : Request} {i : Input} :
    load fs r = .ok i ↔
      fs.loadSchema r.schema = .ok i.schema ∧ fs.loadDocuments r.documents = .ok i.documents := by
  obtain ⟨schema, documents⟩ := i
  rw [load]
  simp only [bind_eq_ok, pure_eq_ok, Input.mk.injEq]
  constructor
  · rintro ⟨_, hschema, _, hdocuments, rfl, rfl⟩
    exact ⟨hschema, hdocuments⟩
  · rintro ⟨hschema, hdocuments⟩
    exact ⟨schema, hschema, documents, hdocuments, rfl, rfl⟩

theorem checked_eq_ok {path text : String} {t : String} :
    checked path text = .ok t ↔ t = text ∧ Grammar.isModule t := by
  rw [checked]
  split_ifs with h
  · exact ⟨fun heq => by cases heq; exact ⟨rfl, h⟩, fun heq => by rw [heq.1]⟩
  · exact ⟨nofun, fun heq => absurd (heq.1 ▸ heq.2) h⟩

theorem generates_iff {fs : Files} {r : Request} {text : String} :
    Generates fs r text ↔ ∃ i warnings, load fs r = .ok i ∧
    (moduleText fs r i).run [] = .ok text warnings := by
  have hmodule (i : Input) (warnings : List Warning) :
      (moduleText fs r i).run [] = .ok text warnings ↔
      ∃ generators, Generator.ofNames (r.generators.map (·.name)) = .ok generators ∧
        ∃ options, r.options fs = .ok options ∧
          ∃ combined, (combinedText generators i.schema
            (Document.concat (i.documents.map (·.document))) options r.output).run [] =
              .ok combined warnings ∧
            text = Hook.run r.hooks r.output combined ∧ Grammar.isModule text := by
    change (generate _ _ _ (r.options fs) _ r.hooks).run [] = _ ↔ _
    simp only [generate, run_bind_ok, run_lift_ok, checked_eq_ok]
    grind
  simp only [hmodule, load_eq_ok]
  constructor
  · rintro ⟨schema, documents, generators, options, combined, warnings, hschema, hdocuments, hrest⟩
    exact ⟨⟨schema, documents⟩, warnings, ⟨hschema, hdocuments⟩, generators, hrest.1, options,
      hrest.2.1, combined, hrest.2.2⟩
  · rintro ⟨⟨schema, documents⟩, warnings, ⟨hschema, hdocuments⟩, generators, hgenerators, options,
      hoptions, combined, hrest⟩
    exact ⟨schema, documents, generators, options, combined, warnings, hschema, hdocuments,
      hgenerators, hoptions, hrest⟩

/-! ## The ends of a run -/

theorem code_failed (fs : Files) (lines : List String) (warnings : List Warning) (e : Error) :
    (failed fs lines warnings e).ending.code = 1 := by
  rw [failed]
  dsimp only
  split_ifs <;> rfl

/-- A generation that fails ends the run, with the files as they were. -/
theorem perform_of_not_generates {fs : Files} {r : Request} (h : ¬∃ text, Generates fs r text) :
    (perform fs r).ending.code ≠ 0 ∧ (perform fs r).files = fs := by
  rw [perform]
  cases hload : load fs r with
  | error e => exact ⟨(code_failed fs _ _ e).trans_ne Nat.one_ne_zero, rfl⟩
  | ok i =>
    dsimp only
    cases hmodule : (moduleText fs r i).run [] with
    | error e warnings => exact ⟨(code_failed fs _ warnings e).trans_ne Nat.one_ne_zero, rfl⟩
    | ok text warnings => exact absurd ⟨text, generates_iff.mpr ⟨i, warnings, hload, hmodule⟩⟩ h

/-- What was generated is saved, and the run ends well if it could be. -/
theorem perform_of_generates {fs : Files} {r : Request} {text : String} (h : Generates fs r text) :
    (perform fs r).files = (fs.save r.output text).files ∧
      ((perform fs r).ending.code = 0 ↔ (fs.save r.output text).fault? = none) := by
  obtain ⟨i, warnings, hload, hmodule⟩ := generates_iff.mp h
  rw [perform, hload]
  simp only [hmodule]
  cases hsaved : (fs.save r.output text).fault? with
  | none => exact ⟨rfl, iff_of_true rfl rfl⟩
  | some fault => exact ⟨rfl, iff_of_false Nat.one_ne_zero nofun⟩

/-- The files after a run. Arguments that cannot be understood, and help, leave them alone. A
request leaves them alone if any stage of its generation fails, and the run ends with a code that is
not zero. If it ends with zero, the text that was generated has been saved, and the files differ in
the output and in directories around it that were missing. Only directories differ if the text was
generated but could not be saved. -/
theorem run_leaves (fs : Files) (arguments : List String) :
    let o := run fs arguments
    match asked? fs arguments with
    | none => o.ending.code ≠ 0 ∧ o.files = fs
    | some .help => o.ending.code = 0 ∧ o.files = fs
    | some (.run r) =>
      ((¬∃ text, Generates fs r text) → o.ending.code ≠ 0 ∧ o.files = fs) ∧
      (o.ending.code = 0 → ∃ text, Generates fs r text ∧ Files.Saved r.output text fs o.files) ∧
      ((∃ text, Generates fs r text) → o.ending.code ≠ 0 →
        Files.AddsAround r.output fs o.files) := by
  dsimp only
  rw [run]
  cases asked? fs arguments with
  | none => exact ⟨nofun, rfl⟩
  | some asked =>
    cases asked with
    | help => exact ⟨rfl, rfl⟩
    | run r =>
      refine ⟨perform_of_not_generates, fun hcode => ?_, fun ⟨text, htext⟩ hcode => ?_⟩
      · obtain ⟨text, htext⟩ : ∃ text, Generates fs r text :=
          by_contra fun hnone => (perform_of_not_generates hnone).1 hcode
        obtain ⟨hfiles, hcode_iff⟩ := perform_of_generates htext
        refine ⟨text, htext, ?_⟩
        dsimp only
        rw [hfiles]
        exact Files.save_saved fs r.output text (hcode_iff.mp hcode)
      · obtain ⟨hfiles, hcode_iff⟩ := perform_of_generates htext
        dsimp only
        rw [hfiles]
        exact Files.save_adds fs r.output text fun hsaved => hcode (hcode_iff.mpr hsaved)

/-- The options cannot be read: the directory that the module would lie in is not made. -/
theorem run_leaves_badOptions :
    let fs : Files := ⟨.directory [("api.graphql", .file "type Query { a: Int }"),
      ("c.json", .file "\x7b")], []⟩
    let o := run fs ["resolvers", "-s", "api.graphql", "-o", "new/api.py", "-c", "c.json"]
    o.ending.code ≠ 0 ∧ o.files = fs := by
  intro fs o
  have hasked : asked? fs ["resolvers", "-s", "api.graphql", "-o", "new/api.py", "-c", "c.json"] =
      some (.run ⟨"api.graphql", "new/api.py", some "c.json", none, [], [.resolvers], false⟩) := rfl
  have hoptions : (fs.loadOptions "c.json").isOk = false := by decide
  have hleaves :=
    run_leaves fs ["resolvers", "-s", "api.graphql", "-o", "new/api.py", "-c", "c.json"]
  rw [hasked] at hleaves
  refine hleaves.1 ?_
  rintro ⟨_, _, _, _, options, _, _, _, _, _, hloaded, _⟩
  rw [show fs.loadOptions "c.json" = .ok options from hloaded] at hoptions
  cases hoptions

end Graphwright.CommandLine
