import Mathlib.Data.List.Flatten
import MockImport.Proofs.Meaning
import MockImport.Proofs.Parts

/-!
The names by which the outside knows parts of a module: the keys of properties, in
object literals and in patterns, and the names in export lists. Settling call sites only
drops such names. Renaming keeps all but one kind: a property that is written as the
variable it sets loses its key when the variable is renamed.
-/

namespace MockImport

/-- The key of a property, as far as it is written out. -/
inductive Key where
  | text (span : Span) (text : String)
  | number (span : Span) (value : Value)
  | computed

/-- A name that the outside sees. -/
inductive Label where
  /-- The key of a property, which stands on its own. -/
  | property (key : Key)
  /-- The key of a property that is written as the variable it sets. -/
  | bound (span : Span) (v : Variable)
  | exported (span : Span) (name : String)

namespace Label

/-- What a renaming makes of a label. -/
def renamed (r : Renaming) : Label → Label
  | .bound span v => .bound span ((r.lookup v).getD v)
  | l => l

/-- What the outside sees of a label. -/
def outward : Label → Label
  | .bound span v => .property (.text span v.name)
  | l => l

theorem renamed_outward (r : Renaming) (l : Label) : l.outward.renamed r = l.outward := by
  cases l <;> rfl

end Label

namespace Tree

/-- The value of a field that is no syntax. -/
def value? : Tree → Option Value
  | .leaf value => some value
  | _ => none

def key : Tree → Key
  | .name span text => .text span text
  | .string literal => .text literal.span literal.value
  | .node _ kind span fields =>
      if kind = .numericLiteral ∨ kind = .bigIntLiteral then
        (fields.head?.bind value?).elim .computed (.number span)
      else .computed
  | _ => .computed

/-- The label of a property `variable = value` in an object literal. -/
def assigned? : Tree → Option Label
  | .ident .plain id => some (.bound id.span id.var)
  | _ => none

end Tree

/-- The labels of a node that opens a scope, by its outer fields. -/
def ScopeKind.labels (kind : ScopeKind) (outer : List Tree) : List Label :=
  if kind = .methodProperty ∨ kind = .setterProperty then
    outer.head?.toList.map fun key => .property key.key
  else []

/-- The labels of a node by its fields. -/
def Kind.labels (kind : Kind) (fields : List Tree) : List Label :=
  if kind = .assignmentProperty then (fields.head?.bind Tree.assigned?).toList else []

/-- The name under which a member of an export list is exported. -/
def ExportSpecifier.label : ExportSpecifier → Label
  | .named span subject exported _ => .exported span (exported.getD subject).text
  | .default exported => .exported exported.span exported.var.name
  | .star span name => .exported span name.text

namespace Tree

mutual

/-- The property keys and the exported names of a tree. -/
def labels : Tree → List Label
  | .absent | .leaf _ | .context _ | .name _ _ | .string _ | .ident _ _ => []
  | .items trees => labelsList trees
  | .shorthand id => [.property (.text id.span id.var.name)]
  | .binding _ typing => labels typing
  | .paren _ _ inner => labels inner
  | .member _ _ object property => labels object ++ labels property
  | .call _ _ callee args typeArgs => labels callee ++ labelsList args ++ labels typeArgs
  | .arg _ value => labels value
  | .variables _ _ _ _ _ declarators => labelsList declarators
  | .declarator _ target init _ => labels target ++ labels init
  | .objectPattern _ properties _ typing => labelsList properties ++ labels typing
  | .patternShorthand _ key typing value =>
      .bound key.span key.var :: (labels typing ++ labels value)
  | .patternPair key value | .pair key value =>
      .property key.key :: (labels key ++ labels value)
  | .getter _ key typing body =>
      .property key.key :: (labels key ++ labels typing ++ labels body)
  | .importDecl _ _ _ _ attributes _ => labels attributes
  -- Renaming does not enter the attributes of an export list.
  | .exportNamed _ specifiers _ _ attributes =>
      specifiers.map ExportSpecifier.label ++ (labels attributes).map Label.outward
  | .exportDecl _ declaration => labels declaration
  | .scope _ kind _ outer inner => kind.labels outer ++ (labelsList outer ++ labelsList inner)
  | .moduleBlock _ body => labelsList body
  | .node _ kind _ fields => kind.labels fields ++ labelsList fields

def labelsList : List Tree → List Label
  | [] => []
  | t :: rest => labels t ++ labelsList rest

end

theorem labelsList_eq_flatMap (ts : List Tree) : labelsList ts = ts.flatMap labels := by
  induction ts with
  | nil => rfl
  | cons t rest ih => simp only [labelsList, ih, List.flatMap_cons]

end Tree

section

variable (r : Renaming)

namespace Tree

theorem value?_rename (t : Tree) : (rename r t).value? = t.value? := by
  cases t with
  | exportNamed _ _ source _ _ => cases source <;> rfl
  | shorthand id =>
      rw [rename, Ident.renameShorthand]
      split <;> rfl
  | _ => rfl

theorem key_rename (t : Tree) : (rename r t).key = t.key := by
  cases t with
  | exportNamed _ _ source _ _ => cases source <;> rfl
  | shorthand id =>
      rw [rename, Ident.renameShorthand]
      split <;> rfl
  | node role kind span fields =>
      simp only [rename, key, renameList_eq_map, List.head?_map, Option.bind_map,
        Function.comp_def, value?_rename]
  | _ => rfl

theorem assigned?_rename (t : Tree) :
    (rename r t).assigned? = t.assigned?.map (Label.renamed r) := by
  cases t with
  | exportNamed _ _ source _ _ => cases source <;> rfl
  | shorthand id =>
      rw [rename, Ident.renameShorthand]
      split <;> rfl
  | ident role id => cases role <;> rfl
  | _ => rfl

end Tree

theorem ScopeKind.labels_rename (kind : ScopeKind) (outer : List Tree) :
    kind.labels (Tree.renameList r outer) = (kind.labels outer).map (Label.renamed r) := by
  simp only [labels, Tree.renameList_eq_map]
  split
  · cases outer with
    | nil => rfl
    | cons key rest => exact congrArg (fun key => [Label.property key]) (key.key_rename r)
  · rfl

theorem Kind.labels_rename (kind : Kind) (fields : List Tree) :
    kind.labels (Tree.renameList r fields) = (kind.labels fields).map (Label.renamed r) := by
  simp only [labels, Tree.renameList_eq_map]
  split
  · cases fields with
    | nil => rfl
    | cons t rest =>
        rw [List.map_cons, List.head?_cons, List.head?_cons, Option.bind_some, Option.bind_some,
          t.assigned?_rename, Option.toList_map]
  · rfl

/-- An export keeps its name whatever becomes of the variable that it exports. -/
theorem ExportSpecifier.label_rename (s : ExportSpecifier) : (s.rename r).label = s.label := by
  cases s with
  | named span subject exported typeOnly =>
      cases subject with
      | string literal => rfl
      | ident subject =>
          rw [rename]
          split <;> rfl
  | default _ | star _ _ => rfl

theorem ExportSpecifier.renamed_label (s : ExportSpecifier) : s.label.renamed r = s.label := by
  cases s <;> rfl

namespace Tree

/-- Renaming a tree renames its labels one by one. -/
theorem labels_rename (t : Tree) : labels (rename r t) = (labels t).map (Label.renamed r) := by
  have list {ts : List Tree}
      (ih : ∀ t ∈ ts, labels (rename r t) = (labels t).map (Label.renamed r)) :
      labelsList (renameList r ts) = (labelsList ts).map (Label.renamed r) := by
    simp only [labelsList_eq_flatMap, renameList_eq_map, List.flatMap_map, List.map_flatMap]
    exact List.flatMap_congr ih
  have outward (t : Tree) : ((labels t).map Label.outward).map (Label.renamed r) =
      (labels t).map Label.outward := by
    rw [List.map_map]
    exact List.map_congr_left fun l _ => l.renamed_outward r
  have exported (specifiers : List ExportSpecifier) :
      (specifiers.map ExportSpecifier.label).map (Label.renamed r) =
        specifiers.map ExportSpecifier.label := by
    rw [List.map_map]
    exact List.map_congr_left fun s _ => s.renamed_label r
  induction t with
  | absent | leaf _ | context _ | name _ _ | string _ | ident _ _ => rfl
  | shorthand id =>
      rw [rename, Ident.renameShorthand]
      split <;> rfl
  | items trees ih => exact list ih
  | binding _ _ ih | paren _ _ _ ih | arg _ _ ih | importDecl _ _ _ _ _ _ ih
  | exportDecl _ _ ih => exact ih
  | member _ _ _ _ ihA ihB | declarator _ _ _ _ ihA ihB =>
      simp only [rename, labels, ihA, ihB, List.map_append]
  | call _ _ _ args _ ihCallee ihArgs ihType =>
      simp only [rename, labels, ihCallee, list ihArgs, ihType, List.map_append]
  | declaration _ _ _ _ _ declarators ih => exact list ih
  | objectPattern _ properties _ _ ihProperties ihType =>
      simp only [rename, labels, list ihProperties, ihType, List.map_append]
  | patternShorthand _ _ _ _ ihType ihValue =>
      simp only [rename, labels, ihType, ihValue, List.map_append, List.map_cons]
      rfl
  | patternPair _ _ ihKey ihValue | pair _ _ ihKey ihValue =>
      simp only [rename, labels, key_rename, ihKey, ihValue, List.map_append, List.map_cons,
        Label.renamed]
  | getter _ _ _ _ ihKey ihType ihBody =>
      simp only [rename, labels, key_rename, ihKey, ihType, ihBody, List.map_append,
        List.map_cons, Label.renamed]
  | exportNamed _ specifiers source _ attributes ih =>
      cases source with
      | none =>
          simp only [rename, labels, List.map_append, outward, exported, List.map_map]
          exact congrArg (· ++ _) (List.map_congr_left fun s _ => s.label_rename r)
      | some source => simp only [rename, labels, List.map_append, outward, exported]
  | scope _ kind _ outer inner ihOuter ihInner =>
      simp only [rename, labels, kind.labels_rename, list ihOuter, list ihInner, List.map_append]
  | moduleBlock _ body ih => exact list ih
  | node _ kind _ fields ih =>
      simp only [rename, labels, kind.labels_rename, list ih, List.map_append]

end Tree

end

section

variable (bs : Bindings)

namespace Tree

theorem value?_settle (t : Tree) (actions : List SiteAction) :
    ((settle bs t).run actions).1.value? = t.value? := by
  cases t with
  | member role span object property =>
      obtain ⟨-, same | ⟨_, same⟩⟩ | ⟨-, _, same⟩ :=
        settle_member_cases bs role span object property actions <;> rw [same] <;> rfl
  | _ => rfl

theorem assigned?_settle (t : Tree) (actions : List SiteAction) :
    ((settle bs t).run actions).1.assigned? = t.assigned? := by
  cases t with
  | member role span object property =>
      obtain ⟨-, same | ⟨_, same⟩⟩ | ⟨-, _, same⟩ :=
        settle_member_cases bs role span object property actions <;> rw [same] <;> rfl
  | _ => rfl

theorem head?_settleList (ts : List Tree) (actions : List SiteAction) :
    ((settleList bs ts).run actions).1.head? =
      ts.head?.map fun t => ((settle bs t).run actions).1 := by
  cases ts <;> rfl

theorem key_settle (t : Tree) (actions : List SiteAction) :
    ((settle bs t).run actions).1.key = t.key := by
  cases t with
  | member role span object property =>
      obtain ⟨-, same | ⟨_, same⟩⟩ | ⟨-, _, same⟩ :=
        settle_member_cases bs role span object property actions <;> rw [same] <;> rfl
  | node role kind span fields =>
      change (Tree.node role kind span ((settleList bs fields).run actions).1).key = _
      simp only [key, head?_settleList, Option.bind_map, Function.comp_def, value?_settle]
  | _ => rfl

end Tree

theorem ScopeKind.labels_settle (kind : ScopeKind) (outer : List Tree)
    (actions : List SiteAction) :
    kind.labels ((Tree.settleList bs outer).run actions).1 = kind.labels outer := by
  simp only [labels, Tree.head?_settleList, Option.toList_map, List.map_map, Function.comp_def,
    Tree.key_settle]

theorem Kind.labels_settle (kind : Kind) (fields : List Tree) (actions : List SiteAction) :
    kind.labels ((Tree.settleList bs fields).run actions).1 = kind.labels fields := by
  simp only [labels, Tree.head?_settleList, Option.bind_map, Function.comp_def,
    Tree.assigned?_settle]

namespace Tree

/-- Settling a tree, by whatever actions, drops labels and leaves the others in order. -/
def Unlabelled (bs : Bindings) (t : Tree) : Prop :=
  ∀ actions, (labels ((settle bs t).run actions).1).Sublist (labels t)

theorem labels_settleList {ts : List Tree} (each : ∀ t ∈ ts, t.Unlabelled bs)
    (actions : List SiteAction) :
    (labelsList ((settleList bs ts).run actions).1).Sublist (labelsList ts) := by
  induction ts generalizing actions with
  | nil => exact .slnil
  | cons t rest ih =>
      obtain ⟨here, later⟩ := List.forall_mem_cons.mp each
      exact (here actions).append (ih later _)

theorem labels_settleDeclarators {ts : List Tree} (each : ∀ t ∈ ts, t.Unlabelled bs)
    (actions : List SiteAction) :
    (labelsList ((settleDeclarators bs ts).run actions).1).Sublist (labelsList ts) := by
  induction ts generalizing actions with
  | nil => exact .slnil
  | cons t rest ih =>
      obtain ⟨here, later⟩ := List.forall_mem_cons.mp each
      cases site : t.isDeclaratorSite bs with
      | true =>
          simp only [settleDeclarators, site, if_true]
          exact (ih later _).trans (List.sublist_append_right _ _)
      | false =>
          simp only [settleDeclarators, site, Bool.false_eq_true, if_false]
          exact (here actions).append (ih later _)

theorem labelsList_filter_sublist (p : Tree → Bool) (ts : List Tree) :
    (labelsList (ts.filter p)).Sublist (labelsList ts) := by
  simp only [labelsList_eq_flatMap]
  exact List.filter_sublist.flatMap labels

theorem unlabelled (t : Tree) : t.Unlabelled bs := by
  have list {ts : List Tree} (ih : ∀ t ∈ ts, t.Unlabelled bs) (actions : List SiteAction) :=
    labels_settleList bs ih actions
  have property (key : Tree) (actions : List SiteAction) :
      [Label.property ((settle bs key).run actions).1.key].Sublist [.property key.key] := by
    rw [key_settle]
  induction t with
  | absent | leaf _ | context _ | name _ _ | string _ | ident _ _ => exact fun _ => .slnil
  | shorthand _ => exact fun _ => List.Sublist.refl _
  | items trees ih => exact fun _ => list ih _
  | binding _ _ ih | paren _ _ _ ih | arg _ _ ih | importDecl _ _ _ _ _ _ ih
  | exportDecl _ _ ih => exact fun _ => ih _
  | member role span object property ihObject ihProperty =>
      intro actions
      obtain ⟨-, same | ⟨_, same⟩⟩ | ⟨-, _, same⟩ :=
        settle_member_cases bs role span object property actions
      · rw [same]
      · rw [same]
        exact List.nil_sublist _
      · rw [same]
        exact (ihObject _).append (ihProperty _)
  | declarator _ _ _ _ ihA ihB => exact fun _ => (ihA _).append (ihB _)
  | call _ _ _ args _ ihCallee ihArgs ihType =>
      exact fun _ => ((ihCallee _).append (list ihArgs _)).append (ihType _)
  | declaration _ _ _ _ _ declarators ih => exact fun _ => labels_settleDeclarators bs ih _
  | objectPattern _ properties _ _ ihProperties ihType =>
      exact fun _ => (list ihProperties _).append (ihType _)
  | patternShorthand _ _ _ _ ihType ihValue =>
      exact fun _ => ((ihType _).append (ihValue _)).cons_cons _
  | patternPair key _ ihKey ihValue | pair key _ ihKey ihValue =>
      exact fun actions => (property key actions).append ((ihKey _).append (ihValue _))
  | getter _ key _ _ ihKey ihType ihBody =>
      exact fun actions =>
        (property key actions).append (((ihKey _).append (ihType _)).append (ihBody _))
  | exportNamed _ specifiers _ _ _ ih =>
      exact fun _ => (List.Sublist.refl _).append ((ih _).map _)
  | scope _ kind _ outer inner ihOuter ihInner =>
      intro actions
      have own : (kind.labels ((settleList bs outer).run actions).1).Sublist
          (kind.labels outer) := by
        rw [kind.labels_settle]
      exact own.append ((list ihOuter _).append (list ihInner _))
  | moduleBlock _ body ih =>
      exact fun _ => (labelsList_filter_sublist _ _).trans (list ih _)
  | node _ kind _ fields ih =>
      intro actions
      have own : (kind.labels ((settleList bs fields).run actions).1).Sublist
          (kind.labels fields) := by
        rw [kind.labels_settle]
      exact own.append (list ih _)

theorem labels_settleItems (items : List Tree) (actions : List SiteAction) :
    (labelsList ((settleItems bs items).run actions).1).Sublist (labelsList items) :=
  unlabelled bs (.moduleBlock .generated items) actions

theorem labels_declarations (imports : Imports) : labelsList imports.declarations = [] := by
  rw [labelsList_eq_flatMap, List.flatMap_eq_nil_iff, Imports.declarations, List.forall_mem_map]
  intro i _
  cases i <;> rfl

theorem labels_registrations (specifiers : List String) :
    labelsList (specifiers.map registration) = [] := by
  rw [labelsList_eq_flatMap, List.flatMap_eq_nil_iff, List.forall_mem_map]
  exact fun _ _ => rfl

end Tree

end

/-- What an expansion generates has no label. -/
theorem Progress.labelsList_assemble (p : Progress) (body : List Tree) :
    Tree.labelsList (p.assemble body) = Tree.labelsList body := by
  conv => rhs; rw [← splitAtImports_append body]
  have declarations := Tree.labels_declarations p.imports
  have registrations := Tree.labels_registrations p.registered
  rw [Tree.labelsList_eq_flatMap] at declarations registrations
  simp only [assemble, Tree.labelsList_eq_flatMap, List.flatMap_append, declarations,
    registrations, List.nil_append, List.append_nil]

namespace Module

/-- What an expansion does to the names that the outside sees. -/
structure Labelled (m m' : Module) (plan : Plan) (options : Options) : Prop where
  body : m'.body = Tree.renameList (m.progress plan options).renames (m.settled plan options)
  /-- What is left of the properties and exports of the module is in the same order. -/
  kept : (Tree.labelsList (m.settled plan options)).Sublist (Tree.labelsList m.body)
  labels : Tree.labelsList m'.body = (Tree.labelsList (m.settled plan options)).map
    (Label.renamed (m.progress plan options).renames)
  /-- The outside sees the same, except of a property written as an alias that it sets. -/
  seen : ∀ l ∈ Tree.labelsList (m.settled plan options),
    (l.renamed (m.progress plan options).renames).outward = l.outward ↔
      ∀ span v, l = .bound span v → v ∉ plan.aliases

variable {m m' : Module} {source : Option String} {plan : Plan}

theorem apply_labelled (ok : Plan.ofModule m source = .ok plan) (options : Options)
    (sites : plan.sites ≠ []) : m.Labelled (m.apply plan options) plan options where
  body := rfl
  kept := by
    have kept := Tree.labels_settleItems plan.bindings
      ((m.progress plan options).assemble m.body) (m.progress plan options).allActions
    rwa [Progress.labelsList_assemble] at kept
  labels := Tree.labels_rename _ (.items (m.settled plan options))
  seen l _ := by
    cases l with
    | bound span v =>
        have once : (∀ span' v', Label.bound span v = .bound span' v' → v' ∉ plan.aliases) ↔
            v ∉ plan.aliases :=
          ⟨fun all => all span v rfl, fun apart _ _ same => (Label.bound.inj same).2 ▸ apart⟩
        rw [once, ← lookup_renames_eq_none_iff ok options]
        cases known : (m.progress plan options).renames.lookup v with
        | none => simp [Label.renamed, known]
        | some new =>
            -- The new name is none of the module's, so it is not that of the alias.
            have isAlias : v ∈ plan.aliases := by
              by_contra apart
              rw [(lookup_renames_eq_none_iff ok options v).mpr apart] at known
              cases known
            have fresh : new.name ∉ m.names := by
              rw [lookup_renames] at known
              obtain ⟨_, -, found⟩ := Option.bind_eq_some_iff.mp known
              exact (progress_sound ok options sites).avoided_of_find? found
            have apart : new.name ≠ v.name := fun same => fresh (same ▸ name_of_alias ok isAlias)
            simp [Label.renamed, known, Label.outward, apart]
    | property _ | exported _ _ => exact iff_of_true rfl fun _ _ same => nomatch same

/-- In every expansion the properties and exports that are left keep what the outside sees
of them, unless a property is written as an alias that it sets. -/
theorem expand_labelled {options : Options} {count : Nat}
    (expanded : m.expand source options = .ok (count, m')) :
    count = 0 ∧ m' = m ∨ ∃ plan, Plan.ofModule m source = .ok plan ∧
      m.Labelled m' plan options := by
  obtain ⟨plan, ok, rfl, ⟨none, rfl⟩ | ⟨sites, rfl⟩⟩ := expand_cases expanded
  · exact .inl ⟨congrArg List.length none, rfl⟩
  · exact .inr ⟨plan, ok, apply_labelled ok options sites⟩

end Module

namespace Sample

/-- `{ foo }`, as a pattern -/
def fooPattern : Tree :=
  .objectPattern .generated
    [.patternShorthand .generated (.generated ⟨"foo", 2⟩) .absent .absent] false .absent

/-- `let { foo } = mock(import("foo")); ({ foo } = bar); f({ foo });` -/
def assigned : Module :=
  ⟨.generated, [importMock,
    .variables .stmt .generated 0 "let" false
      [.declarator .generated fooPattern (mocked "foo") false],
    statement (.paren .expr .generated (.node .expr .assignmentExpression .generated
      [.leaf (.text "="), fooPattern, ident "bar"])),
    statement (.call .generated 0 (ident "f")
      [.arg none (.node .expr .objectExpression .generated
        [.items [.shorthand (.generated ⟨"foo", 2⟩)]])] .absent)], none⟩

end Sample

namespace Module

theorem expand_labelled_assigned :
    ∃ m', Sample.assigned.expand none {} = .ok (1, m') ∧
      ∃ plan, Plan.ofModule Sample.assigned none = .ok plan ∧
        Sample.assigned.Labelled m' plan {} := by
  obtain ⟨m', expanded⟩ : ∃ m', Sample.assigned.expand none {} = .ok (1, m') := ⟨_, rfl⟩
  exact ⟨m', expanded, (expand_labelled expanded).resolve_left fun empty => by cases empty.1⟩

/-- The assignment `({ foo } = bar)` reads the property `_foo` once `foo` is redirected,
whereas the object literal `{ foo }` keeps its property. -/
theorem assigned_loses_key :
    Tree.labelsList Sample.assigned.body =
      [.bound .generated ⟨"foo", 2⟩, .bound .generated ⟨"foo", 2⟩,
        .property (.text .generated "foo")] ∧
      (Sample.assigned.expand none {}).map (Tree.labelsList ·.2.body) =
        .ok [.bound .generated ⟨"_foo", 2⟩, .property (.text .generated "foo")] ∧
      (Label.bound .generated ⟨"_foo", 2⟩).outward ≠
        (Label.bound .generated ⟨"foo", 2⟩).outward := by
  refine ⟨rfl, rfl, ?_⟩
  simp [Label.outward]

end Module
end MockImport
