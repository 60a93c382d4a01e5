import Graphwright.Proofs.Resolver.Protocols

/-!
# The package of resolver interfaces

Resolver interfaces belong to a package: the one that the options name, or else the one of the path
that the module is written to. Only the header and the modules of replaced types depend on it
(`generate_congr`, `partOf_congr`).

* `part_eq`: a part is made for a package; the path has to have one, though the options may name
  another.
* `part_of_package`: where the options name a package, paths do not matter as long as a package can
  be derived from them. Two paths give the same outcome just if the same is wrong with them, or
  nothing.
* `path_matters`: a path from which no package can be derived is refused even so.
-/
namespace Graphwright

namespace Naming

/-- What is wrong with a path that a module is written to; nothing, if a package can be derived from
it. -/
def pathFault? (path : String) : Option PackageFault :=
  match packageOf path with
  | .ok _ => none
  | .error e => some e

theorem pathFault?_eq_none {path : String} :
    pathFault? path = none ↔ ∃ package, packageOf path = .ok package := by
  unfold pathFault?
  cases packageOf path <;> simp

theorem pathFault?_eq_some {path : String} {e : PackageFault} :
    pathFault? path = some e ↔ packageOf path = .error e := by
  unfold pathFault?
  cases packageOf path <;> simp

/-- The fault is one of paths, not of module names. -/
def PackageFault.isOfPath : PackageFault → Bool
  | blankPath | directoryPath _ | leavesRoot _ => true
  | noPackage _ _ | beyondTopLevel _ _ => false

theorem isOfPath_of_packageOf {path : String} {e : PackageFault} (h : packageOf path = .error e) :
    e.isOfPath := by
  unfold packageOf at h
  grind [PackageFault.isOfPath]

theorem isOfPath_of_resolveModule {module package : String} {e : PackageFault}
    (h : resolveModule module package = .error e) : e.isOfPath = false := by
  unfold resolveModule at h
  grind [PackageFault.isOfPath]

end Naming

namespace Resolver

open Graphwright.Module Graphwright.Types Naming

/-! ## What depends on the package -/

theorem isOfPath_of_replacements {package : String} {e : PackageFault}
    {targets : List (String × String)} :
    ∀ {r : Registry}, replacements package r targets = .error e → e.isOfPath = false := by
  induction targets with
  | nil => exact nofun
  | cons target rest ih =>
    intro r h
    have hrest {r' : Registry} {f : List (String × NamedType) × Registry →
        List (String × NamedType) × Registry}
        (h : (replacements package r' rest >>= fun found => pure (f found)) = .error e) :
        e.isOfPath = false := by
      rcases bind_eq_error.mp h with h | ⟨found, -, h⟩
      · exact ih h
      · cases h
    rw [replacements] at h
    cases hsource : (Target.parse target.2).source? with
    | none =>
      rw [hsource] at h
      exact hrest h
    | some source =>
      rw [hsource] at h
      rcases bind_eq_error.mp h with h | ⟨module, -, h⟩
      · exact isOfPath_of_resolveModule h
      · exact hrest h

section Congr

variable {o : Options} {package package' : String}
    (h : packageFor o package = packageFor o package')

include h

theorem generate_congr (s : Schema) : generate s o package = generate s o package' := by
  rw [generate_eq, generate_eq, settingOf, settingOf, h]

theorem partOf_congr (r : Result) : partOf o package r = partOf o package' r := by
  rw [partOf, partOf, h]

end Congr

/-- A package that the options name is used whatever the path. -/
theorem packageFor_of_some {o : Options} {name : String} (h : o.package? = some name)
    (hne : name ≠ "") (package : String) : packageFor o package = name := by
  rw [packageFor, h, Option.filter_some_pos (by simpa using hne), Option.getD_some]

/-- Making resolver interfaces never fails for the path. -/
theorem isOfPath_of_generate {s : Schema} {o : Options} {package : String} {e : PackageFault}
    (h : generate s o package = .error (.package e)) : e.isOfPath = false := by
  rw [generate_eq] at h
  cases hsetting : settingOf s o package with
  | error fault =>
    obtain rfl : fault = e := by simpa [hsetting] using h
    rcases bind_eq_error.mp hsetting with h | ⟨found, -, h⟩
    · exact isOfPath_of_replacements h
    · cases h
  | ok setting =>
    rw [hsetting] at h
    cases hd : s.document with
    | error fault => simp [hd] at h
    | ok d =>
      simp only [hd] at h
      split at h <;> cases h

/-- The path has to have a package; the interfaces are then made for the one that is used. -/
theorem part_eq (s : Schema) (o : Options) (path : String) : part s o path =
    match packageOf path with
    | .error e => .error (.package e)
    | .ok package => (generate s o package).map (partOf o package) := by
  unfold part
  cases packageOf path with
  | error e => rfl
  | ok package =>
    change (generate s o package >>= fun r => .ok (partOf o package r)) =
      (generate s o package).map (partOf o package)
    cases generate s o package <;> simp [bind, Except.bind, Except.map]

theorem part_of_fault {s : Schema} {o : Options} {path : String} {e : PackageFault}
    (h : pathFault? path = some e) : part s o path = .error (.package e) := by
  rw [part_eq, pathFault?_eq_some.mp h]

section Named

variable {s : Schema} {o : Options} {name : String} (h : o.package? = some name) (hne : name ≠ "")

include h hne

/-- Without a fault of the path, the part is made for the package that the options name. -/
theorem part_of_no_fault {path : String} (hp : pathFault? path = none) :
    part s o path = (generate s o name).map (partOf o name) := by
  obtain ⟨package, hpackage⟩ := pathFault?_eq_none.mp hp
  have hcongr : packageFor o package = packageFor o name :=
    (packageFor_of_some h hne package).trans (packageFor_of_some h hne name).symm
  simp only [part_eq, hpackage, generate_congr hcongr, funext (partOf_congr hcongr)]

/-- A path with a fault fails otherwise than one without. -/
theorem part_ne_of_fault {path path' : String} {e : PackageFault} (hp : pathFault? path = none)
    (he : pathFault? path' = some e) : part s o path ≠ part s o path' := by
  rw [part_of_no_fault h hne hp, part_of_fault he]
  intro heq
  cases hr : generate s o name with
  | ok r =>
    rw [hr] at heq
    cases heq
  | error e' =>
    rw [hr] at heq
    cases heq
    have hof := isOfPath_of_packageOf (pathFault?_eq_some.mp he)
    rw [isOfPath_of_generate hr] at hof
    cases hof

end Named

/-- **Package.** Where the options name a package, the part of a module with resolver interfaces is
made for this one. Two paths then give the same outcome, a part or a failure, just if the same is
wrong with both of them, or nothing is; what is wrong with a path is why the part is not made. -/
theorem part_of_package (s : Schema) (o : Options) {name : String} (h : o.package? = some name)
    (hne : name ≠ "") (path path' : String) :
    (part s o path = part s o path' ↔ pathFault? path = pathFault? path') ∧
      (∀ e, pathFault? path = some e → part s o path = .error (.package e)) ∧
      ∀ p, part s o path = .ok p →
      p.header? = moduleDocstring "Generated GraphQL resolver interfaces." name := by
  refine ⟨⟨fun heq => ?_, fun heq => ?_⟩, fun e => part_of_fault, fun p hp => ?_⟩
  · cases hp : pathFault? path <;> cases hp' : pathFault? path'
    · rfl
    · exact absurd heq (part_ne_of_fault h hne hp hp')
    · exact absurd heq.symm (part_ne_of_fault h hne hp' hp)
    · rw [part_of_fault hp, part_of_fault hp'] at heq
      cases heq
      rfl
  · cases hp : pathFault? path with
    | none => rw [part_of_no_fault h hne hp, part_of_no_fault h hne (heq ▸ hp)]
    | some e => rw [part_of_fault hp, part_of_fault (heq ▸ hp)]
  · obtain ⟨package, r, -, -, rfl⟩ := part_ok.mp hp
    rw [partOf, packageFor_of_some h hne package]

def fieldSchema : Schema where
  roots := [(.query, "Query")]
  types := [{ name := "Query", body := .object [] [{ name := "a", type := .named "Int" }] }]
  standard := Schema.standardTypes

/-- Options that name a package, and replace a type by one of that package. -/
def packageOptions : Options :=
  { package? := some "app.api", mappers := [("Query", ".models.Root")] }

theorem part_of_package_fieldSchema :
    packageOptions.package? = some "app.api" ∧ "app.api" ≠ "" ∧
      (∃ p, part fieldSchema packageOptions "resolvers.py" = .ok p ∧
        p.header? = moduleDocstring "Generated GraphQL resolver interfaces." "app.api") ∧
      part fieldSchema packageOptions "resolvers.py" =
        part fieldSchema packageOptions "src/other/graphql.py" := by
  obtain ⟨hsame, -, hheader⟩ := part_of_package fieldSchema packageOptions
    (rfl : packageOptions.package? = some "app.api") (by decide)
    "resolvers.py" "src/other/graphql.py"
  have hok : (part fieldSchema packageOptions "resolvers.py").toOption.isSome := by decide +kernel
  obtain ⟨p, hp⟩ := exists_ok_of_isSome hok
  exact ⟨rfl, by decide, ⟨p, hp, hheader p hp⟩, hsame.mpr (by decide)⟩

/-- A path that leaves its root is refused, though the options name a package. -/
theorem path_matters :
    ¬ ∀ (s : Schema) (o : Options) (name path path' : String), o.package? = some name → name ≠ "" →
    path ≠ "" → path' ≠ "" → part s o path = part s o path' := by
  intro h
  have hok : (part fieldSchema packageOptions "resolvers.py").toOption.isSome := by decide +kernel
  have hfails : (part fieldSchema packageOptions "../resolvers.py").toOption.isSome =
      false := by decide
  rw [h fieldSchema packageOptions "app.api" _ "../resolvers.py" rfl (by decide) (by decide)
    (by decide), hfails] at hok
  cases hok

end Resolver

end Graphwright
