import MockImport.Plan
import MockImport.Proofs.Patterns
import MockImport.Proofs.TreeInduction
import MockImport.Tree.Grammar

/-!
Taking all parentheses off a module, and what is recognised in it then. Parentheses are looked
through around a mock call, its callee and its argument. They are not around the object of a
reference `M.mock`, around the literal of an import, nor where a reference stands as an
assignment target; parentheses that stand elsewhere are idle.
-/

namespace MockImport

/-- Patterns stand in a field of this type, or expressions in their place. -/
def FieldType.isPattern : FieldType → Bool
  | .one position | .optional position | .many position | .sparse position
  | .manyOrNone position => position = .pattern || position = .forHead
  | .leaf | .decimal | .context => false

/-- Where a form has patterns, field by field. -/
def Form.patterns (form : Form) : List Bool := form.fields.map (·.2.isPattern)

namespace Tree

def isParen : Tree → Bool
  | .paren _ _ _ => true
  | _ => false

/-- A tree without the parentheses around it. -/
def stripped : Tree → Tree
  | .paren _ _ inner => inner.stripped
  | t => t

/-- An expression as it stands in the place of parentheses around it: in their role, and as a
pattern if it is an identifier and patterns stand there. -/
def place (role : Role) (pattern : Bool) : Tree → Tree
  | .ident .expr id =>
      if role = .expr && !pattern then .ident .expr id else .binding id .absent
  | .member .expr span object property => .member role span object property
  | .scope .expr kind span outer inner => .scope role kind span outer inner
  | .node .expr kind span fields => .node role kind span fields
  | t => t

mutual

/-- Takes all parentheses off a tree, which may stand where patterns do. -/
def unparen (pattern : Bool) : Tree → Tree
  | .absent => .absent
  | .leaf value => .leaf value
  | .context ctxt => .context ctxt
  | .name span text => .name span text
  | .string literal => .string literal
  | .ident role id => .ident role id
  | .shorthand id => .shorthand id
  | .items trees => .items (unparenList pattern trees)
  | .binding id typing => .binding id (unparen false typing)
  | .paren role _ inner => (unparen false inner).place role pattern
  | .member role span object property =>
      .member role span (unparen false object) (unparen false property)
  | .call span ctxt callee args typeArgs =>
      .call span ctxt (unparen false callee) (unparenList false args) (unparen false typeArgs)
  | .arg spread value => .arg spread (unparen false value)
  | .variables role span ctxt kind declare declarators =>
      .variables role span ctxt kind declare (unparenList false declarators)
  | .declarator span target init definite =>
      .declarator span (unparen true target) (unparen false init) definite
  | .objectPattern span properties optional typing =>
      .objectPattern span (unparenList false properties) optional (unparen false typing)
  | .patternShorthand span key typing value =>
      .patternShorthand span key (unparen false typing) (unparen false value)
  | .patternPair key value => .patternPair (unparen false key) (unparen true value)
  | .pair key value => .pair (unparen false key) (unparen false value)
  | .getter span key typing body =>
      .getter span (unparen false key) (unparen false typing) (unparen false body)
  | .importDecl span specifiers source typeOnly attributes phase =>
      .importDecl span specifiers source typeOnly (unparen false attributes) phase
  | .exportNamed span specifiers source typeOnly attributes =>
      .exportNamed span specifiers source typeOnly (unparen false attributes)
  | .exportDecl span declaration => .exportDecl span (unparen false declaration)
  | .scope role kind span outer inner =>
      .scope role kind span (unparenFields (kind.form.patterns.take kind.outerFields) outer)
        (unparenFields (kind.form.patterns.drop kind.outerFields) inner)
  | .moduleBlock span body => .moduleBlock span (unparenList false body)
  | .node role kind span fields =>
      .node role kind span (unparenFields kind.form.patterns fields)

def unparenList (pattern : Bool) : List Tree → List Tree
  | [] => []
  | t :: rest => unparen pattern t :: unparenList pattern rest

def unparenFields : List Bool → List Tree → List Tree
  | _, [] => []
  | [], t :: rest => unparen false t :: unparenFields [] rest
  | pattern :: patterns, t :: rest => unparen pattern t :: unparenFields patterns rest

end

/-- What can stand in parentheses. -/
def isExpression : Tree → Bool
  | .ident .expr _ | .string _ | .paren .expr _ _ | .member .expr _ _ _ | .call _ _ _ _ _
  | .scope .expr _ _ _ _ => true
  | .node .expr kind _ _ => kind ≠ .importKeyword
  | _ => false

def isVariable : Tree → Bool
  | .ident .expr _ => true
  | _ => false

/-- An import call whose module is written in parentheses. -/
def quotesInParens : Tree → Bool
  | .paren _ _ inner => inner.quotesInParens
  | .call _ _ callee args _ => callee.isImportKeyword &&
      (plainArg? args).any fun t => t.isParen && t.stripped.literal?.isSome
  | _ => false

/-- The property binds a variable that is in parentheses. -/
def pairsInParens : Tree → Bool
  | .patternPair (.name _ _) value => value.isParen && value.stripped.isVariable
  | _ => false

/-- A target that is a variable in parentheses, or binds one by a property. -/
def bindsInParens : Tree → Bool
  | .objectPattern _ properties _ _ => properties.any pairsInParens
  | t => t.isParen && t.stripped.isVariable

end Tree

/-- An expression in parentheses that is a reference, or the member of a mock call, and would
be none in their place. -/
def Bindings.misplaces (bs : Bindings) (role : Role) (pattern : Bool) : Tree → Bool
  | .ident .expr id => (role ≠ .expr || pattern) && (bs.named? id.var).isSome
  | .member .expr _ object property =>
      role ≠ .expr && ((bs.member? object property).isSome || (bs.call? object).isSome)
  | _ => false

namespace Tree

mutual

/-- No parentheses in the tree keep it from being read as it is without them. -/
def parensIdle (bs : Bindings) (pattern : Bool) : Tree → Bool
  | .absent | .leaf _ | .context _ | .name _ _ | .string _ | .ident _ _ | .shorthand _ => true
  | .items trees => parensIdleList bs pattern trees
  | .binding _ typing => parensIdle bs false typing
  | .paren role _ inner =>
      inner.isExpression && !bs.misplaces role pattern inner.stripped && parensIdle bs false inner
  | .member role _ object property =>
      !(role = .expr && object.isParen && (bs.member? object.stripped property).isSome) &&
        parensIdle bs false object && parensIdle bs false property
  | .call _ _ callee args typeArgs =>
      !((bs.callee? callee).isSome && (plainArg? args).any quotesInParens) &&
        parensIdle bs false callee && parensIdleList bs false args && parensIdle bs false typeArgs
  | .arg _ value => parensIdle bs false value
  | .variables _ _ _ _ _ declarators => parensIdleList bs false declarators
  | .declarator _ target init _ =>
      !((bs.call? init).isSome && target.bindsInParens) && parensIdle bs true target &&
        parensIdle bs false init
  | .objectPattern _ properties _ typing =>
      parensIdleList bs false properties && parensIdle bs false typing
  | .patternShorthand _ _ typing value => parensIdle bs false typing && parensIdle bs false value
  | .patternPair key value => parensIdle bs false key && parensIdle bs true value
  | .pair key value => parensIdle bs false key && parensIdle bs false value
  | .getter _ key _ body => parensIdle bs false key && parensIdle bs false body
  | .importDecl _ _ _ _ attributes _ => parensIdle bs false attributes
  | .exportNamed _ _ _ _ _ => true
  | .exportDecl _ declaration => parensIdle bs false declaration
  | .scope _ kind _ outer inner =>
      parensIdleFields bs (kind.form.patterns.take kind.outerFields) outer &&
        parensIdleFields bs (kind.form.patterns.drop kind.outerFields) inner
  | .moduleBlock _ body => parensIdleList bs false body
  | .node _ kind _ fields => parensIdleFields bs kind.form.patterns fields

def parensIdleList (bs : Bindings) (pattern : Bool) : List Tree → Bool
  | [] => true
  | t :: rest => parensIdle bs pattern t && parensIdleList bs pattern rest

def parensIdleFields (bs : Bindings) : List Bool → List Tree → Bool
  | _, [] => true
  | [], t :: rest => parensIdle bs false t && parensIdleFields bs [] rest
  | pattern :: patterns, t :: rest =>
      parensIdle bs pattern t && parensIdleFields bs patterns rest

end

/-! ### Parentheses around an expression -/

/-- The expressions that are not in parentheses. -/
inductive Bare : Tree → Prop
  | ident (id : Ident) : Bare (.ident .expr id)
  | string (literal : StringLiteral) : Bare (.string literal)
  | member (span : Span) (object property : Tree) : Bare (.member .expr span object property)
  | call (span : Span) (ctxt : Nat) (callee : Tree) (args : List Tree) (typeArgs : Tree) :
      Bare (.call span ctxt callee args typeArgs)
  | scope (kind : ScopeKind) (span : Span) (outer inner : List Tree) :
      Bare (.scope .expr kind span outer inner)
  | node (kind : Kind) (span : Span) (fields : List Tree) (other : kind ≠ .importKeyword) :
      Bare (.node .expr kind span fields)

theorem place_expr (t : Tree) : t.place .expr false = t := by
  cases t with
  | ident role _ | member role _ _ _ | scope role _ _ _ _ | node role _ _ _ =>
      cases role <;> rfl
  | _ => rfl

variable {bs : Bindings} {t : Tree}

theorem stripped_of_isParen (bare : t.isParen = false) : t.stripped = t := by
  cases t with
  | paren _ _ _ => cases bare
  | _ => rfl

/-- An expression is some parentheses around a bare one, which come off at once. -/
theorem bare_stripped (isExpression : t.isExpression = true)
    (idle : parensIdle bs false t = true) :
    Bare t.stripped ∧ parensIdle bs false t.stripped = true ∧
      unparen false t = unparen false t.stripped := by
  induction t with
  | ident role id =>
      cases role with
      | expr => exact ⟨.ident id, idle, rfl⟩
      | _ => cases isExpression
  | string literal => exact ⟨.string literal, idle, rfl⟩
  | member role span object property _ _ =>
      cases role with
      | expr => exact ⟨.member span object property, idle, rfl⟩
      | _ => cases isExpression
  | call span ctxt callee args typeArgs _ _ _ =>
      exact ⟨.call span ctxt callee args typeArgs, idle, rfl⟩
  | scope role kind span outer inner _ _ =>
      cases role with
      | expr => exact ⟨.scope kind span outer inner, idle, rfl⟩
      | _ => cases isExpression
  | node role kind span fields _ =>
      cases role with
      | expr => exact ⟨.node kind span fields (of_decide_eq_true isExpression), idle, rfl⟩
      | _ => cases isExpression
  | paren role span inner ih =>
      cases role with
      | expr =>
          simp only [parensIdle, Bool.and_eq_true] at idle
          obtain ⟨bare, idle', same⟩ := ih idle.1.1 idle.2
          exact ⟨bare, idle', (place_expr _).trans same⟩
      | _ => cases isExpression
  | _ => cases isExpression

/-- What is left of parentheses that are idle: a bare expression in their place. -/
theorem exists_bare {pattern : Bool} {role : Role} {span : Span} {inner : Tree}
    (idle : parensIdle bs pattern (.paren role span inner) = true) :
    ∃ s, inner.stripped = s ∧ Bare s ∧ parensIdle bs false s = true ∧
      bs.misplaces role pattern s = false ∧
      unparen pattern (.paren role span inner) = (unparen false s).place role pattern := by
  simp only [parensIdle, Bool.and_eq_true, Bool.not_eq_true'] at idle
  obtain ⟨bare, idle', same⟩ := bare_stripped idle.1.1 idle.2
  exact ⟨_, rfl, bare, idle', idle.1.2, by rw [unparen, same]⟩

/-- What becomes of an expression in the place of parentheses around it. -/
inductive Moved : Tree → Tree → Prop
  | refl (t : Tree) : Moved t t
  | ident (id : Ident) : Moved (.ident .expr id) (.binding id .absent)
  | member (role : Role) (span : Span) (object property : Tree) :
      Moved (.member .expr span object property) (.member role span object property)
  | scope (role : Role) (kind : ScopeKind) (span : Span) (outer inner : List Tree) :
      Moved (.scope .expr kind span outer inner) (.scope role kind span outer inner)
  | node (role : Role) (kind : Kind) (span : Span) (fields : List Tree) :
      Moved (.node .expr kind span fields) (.node role kind span fields)

theorem moved_place (role : Role) (pattern : Bool) (t : Tree) :
    Moved t (t.place role pattern) := by
  cases t with
  | ident own id =>
      cases own with
      | expr =>
          simp only [place]
          split
          · exact .refl _
          · exact .ident id
      | _ => exact .refl _
  | member own span object property =>
      cases own with
      | expr => exact .member role span object property
      | _ => exact .refl _
  | scope own kind span outer inner =>
      cases own with
      | expr => exact .scope role kind span outer inner
      | _ => exact .refl _
  | node own kind span fields =>
      cases own with
      | expr => exact .node role kind span fields
      | _ => exact .refl _
  | _ => exact .refl _

/-- What can be left in the place of parentheses. -/
inductive Placed : Tree → Prop
  | ident (id : Ident) : Placed (.ident .expr id)
  | binding (id : Ident) : Placed (.binding id .absent)
  | string (literal : StringLiteral) : Placed (.string literal)
  | member (role : Role) (span : Span) (object property : Tree) :
      Placed (.member role span object property)
  | call (span : Span) (ctxt : Nat) (callee : Tree) (args : List Tree) (typeArgs : Tree) :
      Placed (.call span ctxt callee args typeArgs)
  | scope (role : Role) (kind : ScopeKind) (span : Span) (outer inner : List Tree) :
      Placed (.scope role kind span outer inner)
  | node (role : Role) (kind : Kind) (span : Span) (fields : List Tree)
      (other : kind ≠ .importKeyword) : Placed (.node role kind span fields)

theorem placed_unparen {pattern : Bool} {role : Role} {span : Span} {inner : Tree}
    (idle : parensIdle bs pattern (.paren role span inner) = true) :
    Placed (unparen pattern (.paren role span inner)) := by
  obtain ⟨s, -, bare, -, -, same⟩ := exists_bare idle
  rw [same]
  cases bare with
  | ident id =>
      simp only [unparen, place]
      split
      · exact .ident id
      · exact .binding id
  | string literal => exact .string literal
  | member span object property => exact .member role span _ _
  | call span ctxt callee args typeArgs => exact .call span ctxt _ _ _
  | scope kind span outer inner => exact .scope role kind span _ _
  | node kind span fields other => exact .node role kind span _ other

namespace Placed

variable {u : Tree}

theorem isParen (placed : Placed u) : u.isParen = false := by
  cases placed <;> rfl

theorem isImportKeyword (placed : Placed u) : u.isImportKeyword = false := by
  cases placed with
  | node _ _ _ _ other => exact decide_eq_false other
  | _ => rfl

theorem plainArg? (placed : Placed u) (rest : List Tree) : Tree.plainArg? (u :: rest) = none := by
  cases placed <;> rfl

theorem propertyPattern? (placed : Placed u) : u.propertyPattern? = none := by
  cases placed <;> rfl

theorem destructuredPair? (placed : Placed u) : u.destructuredPair? = none := by
  cases placed <;> rfl

theorem destructuredPair?_patternShorthand (placed : Placed u) (span : Span) (key : Ident)
    (typing : Tree) :
    (Tree.patternShorthand span key typing u).destructuredPair? = none := by
  cases placed <;> rfl

theorem destructuredPair?_patternPair (placed : Placed u) (value : Tree) :
    (Tree.patternPair u value).destructuredPair? = none := by
  cases placed <;> rfl

theorem mockSpecifiers (placed : Placed u) : u.mockSpecifiers = [] := by
  cases placed <;> rfl

end Placed

/-! ### Imports and arguments -/

theorem Moved.literal? {t u : Tree} (moved : Moved t u) : u.literal? = t.literal? := by
  cases moved <;> rfl

theorem literal?_unparen (pattern : Bool) (t : Tree) :
    (unparen pattern t).literal? = t.stripped.literal? := by
  induction t generalizing pattern with
  | paren role span inner ih => exact (moved_place role pattern _).literal?.trans (ih false)
  | _ => rfl

theorem isImportKeyword_unparen {pattern : Bool} (idle : parensIdle bs pattern t = true) :
    (unparen pattern t).isImportKeyword = t.isImportKeyword := by
  cases t with
  | paren role span inner => exact (placed_unparen idle).isImportKeyword
  | _ => rfl

theorem plainArg?_unparen {args : List Tree} (idle : parensIdleList bs false args = true) :
    plainArg? (unparenList false args) = (plainArg? args).map (unparen false) := by
  cases args with
  | nil => rfl
  | cons t rest =>
      cases t with
      | arg spread value => cases spread <;> cases rest <;> rfl
      | paren role span inner =>
          simp only [parensIdleList, Bool.and_eq_true] at idle
          exact (placed_unparen idle.1).plainArg? _
      | _ => rfl

theorem Moved.dynamicImport? {t u : Tree} (moved : Moved t u) :
    u.dynamicImport? = t.dynamicImport? := by
  cases moved <;> rfl

/-- The module that an import names is read without parentheses as it is with them unless its
literal is in parentheses. -/
theorem dynamicImport?_unparen {pattern : Bool} (idle : parensIdle bs pattern t = true)
    (unquoted : t.quotesInParens = false) :
    (unparen pattern t).dynamicImport? = t.dynamicImport? := by
  induction t generalizing pattern with
  | paren role span inner ih =>
      simp only [parensIdle, Bool.and_eq_true] at idle
      exact (moved_place role pattern _).dynamicImport?.trans (ih idle.2 unquoted)
  | call span ctxt callee args typeArgs _ _ _ =>
      simp only [parensIdle, Bool.and_eq_true] at idle
      obtain ⟨⟨⟨-, idleCallee⟩, idleArgs⟩, -⟩ := idle
      rw [unparen, dynamicImport?_call, dynamicImport?_call, isImportKeyword_unparen idleCallee,
        plainArg?_unparen idleArgs, Option.bind_map]
      simp only [quotesInParens] at unquoted
      cases keyword : callee.isImportKeyword with
      | false => rfl
      | true =>
          cases only : plainArg? args with
          | none => rfl
          | some u =>
              simp only [keyword, only, Bool.true_and, Option.any_some] at unquoted
              simp only [if_true, Option.bind_some, Function.comp_apply, literal?_unparen]
              cases quoted : u.isParen with
              | false => rw [stripped_of_isParen quoted]
              | true =>
                  rw [quoted, Bool.true_and, Option.isSome_eq_false_iff, Option.isNone_iff_eq_none]
                    at unquoted
                  rw [unquoted]
                  cases u with
                  | paren _ _ _ => rfl
                  | _ => cases quoted
  | _ => rfl

/-! ### References and calls -/

theorem propertyPattern?_unparen {pattern : Bool} (idle : parensIdle bs pattern t = true) :
    (unparen pattern t).propertyPattern? = t.propertyPattern? := by
  cases t with
  | paren role span inner => exact (placed_unparen idle).propertyPattern?
  | _ => rfl

end Tree

namespace Bindings

open MockImport.Tree

variable {bs : Bindings} {t : Tree}

theorem member?_eq_none_of_propertyPattern? {property : Tree} (object : Tree)
    (other : property.propertyPattern? = none) : bs.member? object property = none := by
  cases found : bs.member? object property with
  | none => rfl
  | some b =>
      simp only [member?] at found
      split at found
      · cases other
      · cases found

/-- A reference to a member of a whole module is one without parentheses just if it was one,
unless its object is in parentheses. -/
theorem member?_unparen {object property : Tree} (idleObject : parensIdle bs false object = true)
    (idleProperty : parensIdle bs false property = true)
    (open_ : (object.isParen && (bs.member? object.stripped property).isSome) = false) :
    bs.member? (unparen false object) (unparen false property) = bs.member? object property := by
  cases name : property.propertyPattern? with
  | none =>
      rw [member?_eq_none_of_propertyPattern? _ name,
        member?_eq_none_of_propertyPattern? _ ((propertyPattern?_unparen idleProperty).trans name)]
  | some p =>
      obtain ⟨span, text, rfl, -⟩ := propertyPattern?_eq_some_iff.mp name
      cases object with
      | paren role at_ inner =>
          obtain ⟨s, stripped, bare, -, -, same⟩ := exists_bare idleObject
          have none : bs.member? s (.name span text) = none := by
            rw [← stripped]
            exact Option.isNone_iff_eq_none.mp (Option.isSome_eq_false_iff.mp open_)
          rw [same]
          cases bare with
          | ident id =>
              simp only [unparen, place]
              split
              · exact none
              · rfl
          | _ => rfl
      | _ => rfl

theorem callee?_stripped (t : Tree) : bs.callee? t = bs.reference? t.stripped := by
  induction t with
  | paren _ _ _ ih => exact ih
  | _ => rfl

theorem reference?_unparen (bare : Bare t) (idle : parensIdle bs false t = true) :
    bs.reference? (unparen false t) = bs.reference? t := by
  cases bare with
  | member span object property =>
      simp only [parensIdle, Bool.and_eq_true, Bool.not_eq_true'] at idle
      exact member?_unparen idle.1.2 idle.2 idle.1.1
  | _ => rfl

section

variable {role : Role} {pattern : Bool}

theorem named?_eq_none_of_moved {id : Ident}
    (placed : bs.misplaces role pattern (.ident .expr id) = false)
    (moved : ¬(decide (role = .expr) && !pattern) = true) : bs.named? id.var = none := by
  have away : (decide (role ≠ .expr) || pattern) = true := by
    cases pattern <;> simp_all
  rw [misplaces, away, Bool.true_and] at placed
  exact Option.isNone_iff_eq_none.mp (Option.isSome_eq_false_iff.mp placed)

theorem member?_eq_none_of_moved {span : Span} {object property : Tree}
    (placed : bs.misplaces role pattern (.member .expr span object property) = false)
    (moved : role ≠ .expr) : bs.member? object property = none ∧ bs.call? object = none := by
  simp only [misplaces, moved, ne_eq, not_false_eq_true, decide_true, Bool.true_and,
    Bool.or_eq_false_iff, Option.isSome_eq_false_iff, Option.isNone_iff_eq_none] at placed
  exact placed

/-- In the place of parentheses that are idle, an expression is a reference just if it was. -/
theorem reference?_place (bare : Bare t) (idle : parensIdle bs false t = true)
    (placed : bs.misplaces role pattern t = false) :
    bs.reference? ((unparen false t).place role pattern) = bs.reference? t := by
  have same := reference?_unparen bare idle
  cases bare with
  | ident id =>
      simp only [unparen, place]
      split
      · rfl
      · next moved => exact (named?_eq_none_of_moved placed moved).symm
  | member span object property =>
      cases role with
      | expr => exact same
      | _ => exact (member?_eq_none_of_moved placed (by rintro ⟨⟩)).1.symm
  | _ => rfl

end

theorem callee?_unparen {pattern : Bool} (idle : parensIdle bs pattern t = true) :
    bs.callee? (unparen pattern t) = bs.callee? t := by
  cases t with
  | paren role span inner =>
      obtain ⟨s, stripped, bare, idle', placed, same⟩ := exists_bare idle
      have left := (placed_unparen idle).isParen
      rw [callee?_stripped, stripped_of_isParen left, same, reference?_place bare idle' placed,
        callee?_stripped]
      exact congrArg bs.reference? stripped.symm
  | member role span object property =>
      cases role with
      | expr => exact reference?_unparen (.member span object property) idle
      | _ => rfl
  | _ => rfl

theorem call?_of_moved {u : Tree} (moved : Moved t u) : bs.call? u = bs.call? t := by
  cases moved <;> rfl

end Bindings

/-- A mock call without the parentheses in its arguments. -/
def MockCall.unparen (call : MockCall) : MockCall :=
  { call with args := Tree.unparenList false call.args }

namespace Bindings

open MockImport.Tree

variable {bs : Bindings} {t : Tree}

theorem call?_unparen {pattern : Bool} (idle : parensIdle bs pattern t = true) :
    bs.call? (Tree.unparen pattern t) = (bs.call? t).map MockCall.unparen := by
  induction t generalizing pattern with
  | paren role span inner ih =>
      simp only [parensIdle, Bool.and_eq_true] at idle
      exact (call?_of_moved (moved_place role pattern _)).trans (ih idle.2)
  | call span ctxt callee args typeArgs _ _ _ =>
      simp only [parensIdle, Bool.and_eq_true] at idle
      obtain ⟨⟨⟨-, idleCallee⟩, -⟩, -⟩ := idle
      simp only [Tree.unparen, call?, callee?_unparen idleCallee, Option.map_map]
      rfl
  | _ => rfl

end Bindings

theorem MockCall.specifier?_unparen {bs : Bindings} (call : MockCall)
    (idle : Tree.parensIdleList bs false call.args = true)
    (unquoted : (Tree.plainArg? call.args).any Tree.quotesInParens = false) :
    call.unparen.specifier? = call.specifier? := by
  rw [specifier?_eq_bind, specifier?_eq_bind, unparen, Tree.plainArg?_unparen idle,
    Option.bind_map]
  cases only : Tree.plainArg? call.args with
  | none => rfl
  | some t =>
      rw [Tree.plainArg?_eq_some_iff.mp only] at idle
      simp only [Tree.parensIdleList, Tree.parensIdle, Bool.and_true] at idle
      rw [only, Option.any_some] at unquoted
      exact Tree.dynamicImport?_unparen idle unquoted

/-! ### Patterns -/

namespace Tree

variable {bs : Bindings} {t : Tree}

/-- A property takes a value out as it does with parentheses unless it binds a variable that is
in parentheses. -/
theorem destructuredPair?_unparen (idle : parensIdle bs false t = true)
    (bound : t.pairsInParens = false) :
    (unparen false t).destructuredPair? = t.destructuredPair? := by
  cases t with
  | patternShorthand span key typing value =>
      simp only [parensIdle, Bool.and_eq_true] at idle
      cases value with
      | paren role at_ inner =>
          exact (placed_unparen idle.2).destructuredPair?_patternShorthand span key _
      | _ => rfl
  | patternPair key value =>
      simp only [parensIdle, Bool.and_eq_true] at idle
      cases key with
      | name span property =>
          cases value with
          | paren role at_ inner =>
              obtain ⟨s, stripped, bare, -, -, same⟩ := exists_bare idle.2
              rw [unparen, same]
              cases bare with
              | ident id =>
                  change inner.stripped.isVariable = false at bound
                  rw [stripped] at bound
                  cases bound
              | _ => rfl
          | _ => rfl
      | paren role at_ inner => exact (placed_unparen idle.1).destructuredPair?_patternPair _
      | _ => rfl
  | paren role span inner => exact (placed_unparen idle).destructuredPair?
  | _ => rfl

theorem mapM_destructuredPair?_unparen {properties : List Tree}
    (idle : parensIdleList bs false properties = true)
    (bound : properties.any pairsInParens = false) :
    (unparenList false properties).mapM destructuredPair? =
      properties.mapM destructuredPair? := by
  induction properties with
  | nil => rfl
  | cons t rest ih =>
      simp only [parensIdleList, Bool.and_eq_true] at idle
      rw [List.any_cons, Bool.or_eq_false_iff] at bound
      rw [unparenList, List.mapM_cons, List.mapM_cons, destructuredPair?_unparen idle.1 bound.1,
        ih idle.2 bound.2]

/-- A target amounts to the same pattern as with parentheses unless it binds a variable that is
in parentheses. -/
theorem targetPattern?_unparen (idle : parensIdle bs true t = true)
    (bound : t.bindsInParens = false) :
    (unparen true t).targetPattern? = t.targetPattern? := by
  cases t with
  | objectPattern span properties optional typing =>
      simp only [parensIdle, Bool.and_eq_true] at idle
      rw [unparen, targetPattern?, targetPattern?, mapM_destructuredPair?_unparen idle.1 bound]
  | paren role span inner =>
      obtain ⟨s, stripped, bare, -, -, same⟩ := exists_bare idle
      rw [same]
      cases bare with
      | ident id =>
          change inner.stripped.isVariable = false at bound
          rw [stripped] at bound
          cases bound
      | _ => rfl
  | _ => rfl

end Tree

end MockImport
