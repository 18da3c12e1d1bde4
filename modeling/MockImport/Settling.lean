import MockImport.Binding

/-!
Settling call sites. A traversal meets them in source order and hands each the next
of a list of actions: a declarator goes away, a member access becomes a variable.
-/

namespace MockImport

/-- What becomes of a call site. -/
inductive SiteAction where
  | remove
  | replace (v : Variable)
  deriving DecidableEq

/-- A traversal that uses up actions. -/
abbrev Settling := StateM (List SiteAction)

def Settling.next : Settling (Option SiteAction) := do
  let actions ← get
  set actions.tail
  return actions.head?

namespace Tree

/-- A declarator whose initial value is a mock call. -/
def isDeclaratorSite (bs : Bindings) : Tree → Bool
  | .declarator _ _ init _ => (bs.call? init).isSome
  | _ => false

/-- A variable declaration, exported or not, that declares nothing. -/
def isEmptied : Tree → Bool
  | .variables _ _ _ _ _ [] => true
  | .exportDecl _ (.variables _ _ _ _ _ []) => true
  | _ => false

/-- A member access on a mock call becomes the variable of its action; without one it
stays. -/
def settleMember (site : Tree) : Settling Tree := do
  match ← Settling.next with
  | some (.replace v) => return .ident .expr (.generated v)
  | _ => return site

mutual

/-- Settles the call sites of a tree. -/
def settle (bs : Bindings) : Tree → Settling Tree
  | .absent => return .absent
  | .leaf value => return .leaf value
  | .context ctxt => return .context ctxt
  | .name span text => return .name span text
  | .string literal => return .string literal
  | .ident role id => return .ident role id
  | .shorthand id => return .shorthand id
  | .items trees => return .items (← settleList bs trees)
  | .binding id typing => return .binding id (← settle bs typing)
  | .paren role span inner => return .paren role span (← settle bs inner)
  | .member role span object property =>
      if role = .expr ∧ (bs.call? object).isSome then
        settleMember (.member role span object property)
      else return .member role span (← settle bs object) (← settle bs property)
  | .call span ctxt callee args typeArgs =>
      return .call span ctxt (← settle bs callee) (← settleList bs args) (← settle bs typeArgs)
  | .arg spread value => return .arg spread (← settle bs value)
  | .variables role span ctxt kind declare declarators =>
      return .variables role span ctxt kind declare (← settleDeclarators bs declarators)
  | .declarator span target init definite =>
      return .declarator span (← settle bs target) (← settle bs init) definite
  | .objectPattern span properties optional typing =>
      return .objectPattern span (← settleList bs properties) optional (← settle bs typing)
  | .patternShorthand span key typing value =>
      return .patternShorthand span key (← settle bs typing) (← settle bs value)
  | .patternPair key value => return .patternPair (← settle bs key) (← settle bs value)
  | .pair key value => return .pair (← settle bs key) (← settle bs value)
  | .getter span key typing body =>
      return .getter span (← settle bs key) (← settle bs typing) (← settle bs body)
  | .importDecl span specifiers source typeOnly attributes phase =>
      return .importDecl span specifiers source typeOnly (← settle bs attributes) phase
  | .exportNamed span specifiers source typeOnly attributes =>
      return .exportNamed span specifiers source typeOnly (← settle bs attributes)
  | .exportDecl span declaration => return .exportDecl span (← settle bs declaration)
  | .scope role kind span outer inner =>
      return .scope role kind span (← settleList bs outer) (← settleList bs inner)
  | .moduleBlock span body =>
      return .moduleBlock span ((← settleList bs body).filter (!·.isEmptied))
  | .node role kind span fields => return .node role kind span (← settleList bs fields)

def settleList (bs : Bindings) : List Tree → Settling (List Tree)
  | [] => return []
  | t :: rest => return (← settle bs t) :: (← settleList bs rest)

/-- Declarators that are call sites go away, whatever their action. -/
def settleDeclarators (bs : Bindings) : List Tree → Settling (List Tree)
  | [] => return []
  | t :: rest =>
      if t.isDeclaratorSite bs then do
        let _ ← Settling.next
        settleDeclarators bs rest
      else return (← settle bs t) :: (← settleDeclarators bs rest)

end

/-- Settles the call sites of module items and drops the declarations that they leave
without declarators. -/
def settleItems (bs : Bindings) (items : List Tree) : Settling (List Tree) :=
  return (← settleList bs items).filter (!·.isEmptied)

end Tree
end MockImport
