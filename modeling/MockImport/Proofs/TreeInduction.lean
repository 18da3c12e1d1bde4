import MockImport.Tree.Basic

/-!
Induction on syntax trees. A tree holds lists of trees, so the principle gives one
hypothesis for every member of such a list.
-/

namespace MockImport

@[elab_as_elim, induction_eliminator]
theorem Tree.induction {P : Tree → Prop}
    (absent : P .absent)
    (leaf : ∀ value, P (.leaf value))
    (context : ∀ ctxt, P (.context ctxt))
    (items : ∀ trees, (∀ t ∈ trees, P t) → P (.items trees))
    (ident : ∀ role id, P (.ident role id))
    (binding : ∀ id typing, P typing → P (.binding id typing))
    (name : ∀ span text, P (.name span text))
    (string : ∀ literal, P (.string literal))
    (paren : ∀ role span inner, P inner → P (.paren role span inner))
    (member : ∀ role span object property, P object → P property →
      P (.member role span object property))
    (call : ∀ span ctxt callee args typeArgs, P callee → (∀ t ∈ args, P t) → P typeArgs →
      P (.call span ctxt callee args typeArgs))
    (arg : ∀ spread value, P value → P (.arg spread value))
    (declaration : ∀ role span ctxt kind declare declarators, (∀ t ∈ declarators, P t) →
      P (.variables role span ctxt kind declare declarators))
    (declarator : ∀ span target init definite, P target → P init →
      P (.declarator span target init definite))
    (objectPattern : ∀ span properties optional typing, (∀ t ∈ properties, P t) → P typing →
      P (.objectPattern span properties optional typing))
    (patternShorthand : ∀ span key typing value, P typing → P value →
      P (.patternShorthand span key typing value))
    (patternPair : ∀ key value, P key → P value → P (.patternPair key value))
    (shorthand : ∀ id, P (.shorthand id))
    (pair : ∀ key value, P key → P value → P (.pair key value))
    (getter : ∀ span key typing body, P key → P typing → P body →
      P (.getter span key typing body))
    (importDecl : ∀ span specifiers source typeOnly attributes phase, P attributes →
      P (.importDecl span specifiers source typeOnly attributes phase))
    (exportNamed : ∀ span specifiers source typeOnly attributes, P attributes →
      P (.exportNamed span specifiers source typeOnly attributes))
    (exportDecl : ∀ span declaration, P declaration → P (.exportDecl span declaration))
    (scope : ∀ role kind span outer inner, (∀ t ∈ outer, P t) → (∀ t ∈ inner, P t) →
      P (.scope role kind span outer inner))
    (moduleBlock : ∀ span body, (∀ t ∈ body, P t) → P (.moduleBlock span body))
    (node : ∀ role kind span fields, (∀ t ∈ fields, P t) → P (.node role kind span fields))
    (t : Tree) : P t :=
  Tree.rec (motive_1 := P) (motive_2 := fun trees => ∀ t ∈ trees, P t)
    absent leaf context items ident binding name string paren member call arg declaration
    declarator objectPattern patternShorthand patternPair shorthand pair getter importDecl
    exportNamed exportDecl scope moduleBlock node
    (List.forall_mem_nil _)
    (fun _ _ headHolds tailHolds _ mem =>
      match mem with
      | .head _ => headHolds
      | .tail _ later => tailHolds _ later)
    t

end MockImport
