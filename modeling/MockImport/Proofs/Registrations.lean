import MockImport.Proofs.Synthesis

/-!
What leaving out the registrations changes. Processing a site never looks at what is
registered so far, settling finds nothing to settle in a registration, and renaming works item
by item; so an expansion without registrations is one with them from which they are taken
out again. This holds of the items as they are generated one by one, too.
-/

namespace MockImport

/-- The sites that get a registration: all if there is an import to put it behind, else those
from the first on that has something imported. -/
def registering (hasImport : Bool) (sites : List Site) : List Site :=
  sites.dropWhile fun site => !hasImport && site.requests.isEmpty

/-- The modules that carrying out a plan registers, in processing order. -/
def Plan.registers (plan : Plan) (hasImport : Bool) : List String :=
  (registering hasImport (plan.order.filterMap (plan.sites[·]?))).map Site.specifier

theorem registering_cons (hasImport : Bool) (site : Site) (rest : List Site) :
    registering hasImport (site :: rest) =
      if hasImport || !site.requests.isEmpty then site :: rest else registering hasImport rest := by
  rw [registering, List.dropWhile_cons]
  cases hasImport <;> cases site.requests.isEmpty <;> rfl

theorem registering_true (sites : List Site) : registering true sites = sites := by
  cases sites with
  | nil => rfl
  | cons site rest => rw [registering_cons, Bool.true_or, if_pos rfl]

namespace Progress

/-- Forgets the registered modules. -/
def unregistered (p : Progress) : Progress := { p with registered := [] }

variable (p : Progress) (options : Options) (hasImport : Bool)

theorem unregistered_register (specifier : String) :
    (p.register hasImport specifier).unregistered = p.unregistered := by
  rw [register]
  split <;> rfl

theorem unregistered_consume (specifier : String) (pattern : Pattern) :
    p.unregistered.consume specifier pattern =
      ((p.consume specifier pattern).1.unregistered, (p.consume specifier pattern).2) := by
  cases pattern with
  | destructure pairs =>
      exact congrArg (·, SiteAction.remove)
        (List.foldl_hom unregistered fun _ _ => rfl)
  | _ => rfl

/-- A site is processed alike whatever is registered so far and whether it will be itself. -/
theorem unregistered_step (sites : List Site) (i : Nat) :
    p.unregistered.step { skipRegistration := true } hasImport sites i =
      (p.step options hasImport sites i).unregistered := by
  cases at_i : sites[i]? with
  | none => rw [step_none _ _ _ _ _ at_i, step_none _ _ _ _ _ at_i]
  | some site =>
      simp only [step, at_i, unregistered_consume, if_true]
      split
      · rfl
      · rw [unregistered_register]
        rfl

/-- A site is registered if there is an import once its requests are served, unless
registrations are left out. -/
theorem registered_step {sites : List Site} {i : Nat} {site : Site}
    (at_i : sites[i]? = some site) :
    (p.step options hasImport sites i).imports = p.imports.serveAll site.requests ∧
      (p.step options hasImport sites i).registered =
        if options.skipRegistration then p.registered
        else if hasImport || !(p.imports.serveAll site.requests).generated.isEmpty
          then site.specifier :: p.registered else p.registered := by
  have served := congrArg Progress.imports (p.consume_progress site)
  rw [foldl_serve_imports] at served
  have registered := congrArg Progress.registered (p.consume_progress site)
  rw [foldl_serve_registered] at registered
  simp only [step, at_i, register, served, registered]
  split
  · exact ⟨rfl, rfl⟩
  · split <;> exact ⟨rfl, rfl⟩

theorem registered_foldl_step (sites : List Site) (order : List Nat) :
    (order.foldl (step options hasImport sites) p).registered =
      (if options.skipRegistration then []
        else (registering (hasImport || !p.imports.generated.isEmpty)
          (order.filterMap (sites[·]?))).reverse.map Site.specifier) ++ p.registered := by
  induction order generalizing p with
  | nil => cases options.skipRegistration <;> rfl
  | cons i rest ih =>
      rw [List.foldl_cons, ih]
      cases at_i : sites[i]? with
      | none => rw [step_none _ _ _ _ _ at_i, List.filterMap_cons_none at_i]
      | some site =>
          obtain ⟨imports, registered⟩ := p.registered_step options hasImport at_i
          have can : (hasImport || !(p.imports.serveAll site.requests).generated.isEmpty) =
              ((hasImport || !p.imports.generated.isEmpty) || !site.requests.isEmpty) := by
            rw [Imports.isEmpty_generated_serveAll, Bool.not_and, Bool.or_assoc]
          rw [List.filterMap_cons_some at_i, registering_cons, imports, registered, can]
          cases options.skipRegistration with
          | true => rfl
          | false =>
              simp only [Bool.false_eq_true, if_false]
              split
              · next now =>
                  rw [now, registering_true, List.reverse_cons, List.map_append, List.append_assoc]
                  rfl
              · next never =>
                  have none := Bool.eq_false_iff.mpr never
                  rw [none, (Bool.or_eq_false_iff.mp none).1]

end Progress

namespace Plan

variable (plan : Plan) (options : Options) (hasImport : Bool)

theorem unregistered_process :
    (plan.process options hasImport).unregistered =
      plan.process { skipRegistration := true } hasImport :=
  (List.foldl_hom Progress.unregistered fun p i =>
    p.unregistered_step options hasImport plan.sites i).symm

theorem registered_process : (plan.process options hasImport).registered =
    if options.skipRegistration then [] else (plan.registers hasImport).reverse := by
  rw [process, Progress.registered_foldl_step, registers, List.map_reverse]
  simp only [Progress.start, List.isEmpty_nil, Bool.not_true, Bool.or_false, List.append_nil]

end Plan

namespace Module

variable (m : Module) (plan : Plan)

/-- What is generated one by one is settled and renamed along with the items of the module. -/
theorem body_apply_draft (options : Options) : (m.apply plan options).body =
    Tree.renameList (m.progress plan options).renames ((Tree.settleItems plan.bindings
      (m.draft plan options).body).run (m.progress plan options).allActions).1 := by
  rw [body_draft]
  rfl

/-- What carrying out a plan puts above its registrations and below them. -/
def surroundings (options : Options) : List Tree × List Tree :=
  let p := m.progress plan options
  (Tree.renameList p.renames p.imports.declarations ++ (p.carried plan.bindings m.body).1,
    (p.carried plan.bindings m.body).2)

theorem body_apply_surroundings (options : Options) :
    (m.apply plan options).body = (m.surroundings plan options).1 ++
      Tree.renameList (m.progress plan options).renames
        ((m.progress plan options).registered.map registration) ++
      (m.surroundings plan options).2 := by
  have renamed : (m.apply plan options).body = Tree.renameList (m.progress plan options).renames
      (m.settled plan options) := rfl
  rw [renamed, settled, Progress.settle_assemble]
  simp only [Tree.renameList_append]
  rfl

/-- Carrying out a plan with registrations and without them are the same but for the
registrations. -/
structure RegistrationsApart : Prop where
  imports : (m.progress plan {}).imports =
    (m.progress plan { skipRegistration := true }).imports
  renames : (m.progress plan {}).renames =
    (m.progress plan { skipRegistration := true }).renames
  actions : (m.progress plan {}).actions =
    (m.progress plan { skipRegistration := true }).actions
  /-- All sites count, whatever is registered. -/
  count : (m.progress plan {}).actions.length = plan.sites.length
  body : ∃ before after,
    (m.apply plan { skipRegistration := true }).body = before ++ after ∧
    (m.apply plan {}).body = before ++ Tree.renameList (m.progress plan {}).renames
      ((plan.registers (m.body.any Tree.isImport)).reverse.map Tree.jestMock) ++ after
  /-- Registrations are put among the items one by one, while imports are generated too. -/
  drafts : ∃ before after,
    (m.draft plan { skipRegistration := true }).body = before ++ after ∧
    (m.draft plan {}).body = before ++
      (plan.registers (m.body.any Tree.isImport)).reverse.map Tree.jestMock ++ after
  settled : ∀ options, (m.apply plan options).body =
    Tree.renameList (m.progress plan options).renames ((Tree.settleItems plan.bindings
      (m.draft plan options).body).run (m.progress plan options).allActions).1
  span : (m.apply plan {}).span = (m.apply plan { skipRegistration := true }).span
  interpreter : (m.apply plan {}).interpreter =
    (m.apply plan { skipRegistration := true }).interpreter

theorem registrationsApart : m.RegistrationsApart plan := by
  have same : (m.progress plan {}).unregistered =
      m.progress plan { skipRegistration := true } := plan.unregistered_process {} _
  have on : (m.progress plan {}).registered =
      (plan.registers (m.body.any Tree.isImport)).reverse := plan.registered_process {} _
  have off : (m.progress plan { skipRegistration := true }).registered = [] :=
    plan.registered_process { skipRegistration := true } _
  have imports : (m.progress plan { skipRegistration := true }).imports =
      (m.progress plan {}).imports := by
    rw [← same]
    rfl
  exact {
    imports := imports.symm
    renames := by rw [← same]; rfl
    actions := by rw [← same]; rfl
    count := by
      obtain ⟨-, -, length, -⟩ := Progress.foldl_step_spec {} (m.body.any Tree.isImport)
        plan.sites plan.order (.start plan) (.empty _ plan.taken)
      exact length.trans (List.length_map _)
    body := by
      have above : m.surroundings plan { skipRegistration := true } = m.surroundings plan {} := by
        rw [surroundings, ← same]
        rfl
      refine ⟨(m.surroundings plan {}).1, (m.surroundings plan {}).2, ?_, ?_⟩
      · rw [body_apply_surroundings, above, off, List.map_nil, Tree.renameList,
          List.append_nil]
      · rw [body_apply_surroundings, on, registration_eq_jestMock]
    drafts := by
      refine ⟨(m.progress plan {}).imports.declarations ++ (splitAtImports m.body).1,
        (splitAtImports m.body).2, ?_, ?_⟩
      · simp only [body_draft, Progress.assemble, off, List.map_nil, List.append_nil, imports]
      · rw [body_draft, Progress.assemble, on, registration_eq_jestMock]
    settled := m.body_apply_draft plan
    span := rfl
    interpreter := rfl }

end Module

/-- What expanding a program with registrations and without them can come to. -/
inductive Program.ExpandsAlike (program : Program) (source : Option String) : Prop
  | failed (failure : Failure) (on : program.expand source {} = .error failure)
      (off : program.expand source { skipRegistration := true } = .error failure)
  | unchanged (on : program.expand source {} = .ok (0, program))
      (off : program.expand source { skipRegistration := true } = .ok (0, program))
  | expanded (m : Module) (plan : Plan) (isModule : program = .module m)
      (on : program.expand source {} = .ok (plan.sites.length, .module (m.apply plan {})))
      (off : program.expand source { skipRegistration := true } =
        .ok (plan.sites.length, .module (m.apply plan { skipRegistration := true })))
      (apart : m.RegistrationsApart plan)

theorem Program.expandsAlike (program : Program) (source : Option String) :
    program.ExpandsAlike source := by
  cases program with
  | script s => exact .unchanged rfl rfl
  | module m =>
      cases planned : Plan.ofModule m source with
      | error failure =>
          have fails (options : Options) :
              (Program.module m).expand source options = .error failure := by
            simp only [expand, Module.expand, planned]
            rfl
          exact .failed failure (fails _) (fails _)
      | ok plan =>
          by_cases none : plan.sites = []
          · have stays (options : Options) :
                (Program.module m).expand source options = .ok (0, .module m) := by
              simp only [expand, Module.expand, planned, bind, Except.bind, none]
              rfl
            exact .unchanged (stays _) (stays _)
          · have result (options : Options) : (Program.module m).expand source options =
                .ok (plan.sites.length, .module (m.apply plan options)) := by
              have some := List.isEmpty_eq_false_iff.mpr none
              simp only [expand, Module.expand, planned, bind, Except.bind, some]
              rfl
            exact .expanded m plan rfl (result _) (result _) (m.registrationsApart plan)

/-- Whether registrations are made changes nothing but the registrations, for any plan and
any program. -/
theorem registrations_apart :
    (∀ (m : Module) (plan : Plan), m.RegistrationsApart plan) ∧
      ∀ (program : Program) (source : Option String), program.ExpandsAlike source :=
  ⟨Module.registrationsApart, Program.expandsAlike⟩

end MockImport
