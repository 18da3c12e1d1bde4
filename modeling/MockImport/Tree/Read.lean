import MockImport.Tree.Basic
import MockImport.Tree.Grammar

/-!
Syntax trees read from interchange values. Reading follows the grammar from the
position of a node to its symbol and from there to the positions of its fields.
-/

namespace MockImport

def Span.read (v : Value) : Option Span := do
  return ⟨← (← v.get? "start").toNat?, ← (← v.get? "end").toNat?⟩

def Ident.read (v : Value) : Option Ident := do
  let span ← Span.read (← v.get? "span")
  let ctxt ← (← v.get? "ctxt").toNat?
  let name ← (← v.get? "value").toText?
  let optional ← (← v.get? "optional").toBool?
  return ⟨span, ⟨name, ctxt⟩, optional⟩

def StringLiteral.read (v : Value) : Option StringLiteral := do
  let span ← Span.read (← v.get? "span")
  let value ← (← v.get? "value").toText?
  let raw ← (v.getOrNull "raw").optional? Value.toText?
  return ⟨span, value, raw⟩

def ExportName.read (v : Value) : Option ExportName :=
  match v.get? "type" with
  | some (.text "Identifier") => (Ident.read v).map .ident
  | some (.text "StringLiteral") => (StringLiteral.read v).map .string
  | _ => none

def ImportSpecifier.read (v : Value) : Option ImportSpecifier := do
  let span ← Span.read (← v.get? "span")
  let binding ← Ident.read (← v.get? "local")
  match v.get? "type" with
  | some (.text "ImportSpecifier") =>
      let imported ← (v.getOrNull "imported").optional? ExportName.read
      let typeOnly ← (← v.get? "isTypeOnly").toBool?
      return .named span binding imported typeOnly
  | some (.text "ImportDefaultSpecifier") => return .default span binding
  | some (.text "ImportNamespaceSpecifier") => return .star span binding
  | _ => none

def ExportSpecifier.read (v : Value) : Option ExportSpecifier :=
  match v.get? "type" with
  | some (.text "ExportSpecifier") => do
      let span ← Span.read (← v.get? "span")
      let subject ← ExportName.read (← v.get? "orig")
      let exported ← (v.getOrNull "exported").optional? ExportName.read
      let typeOnly ← (← v.get? "isTypeOnly").toBool?
      return .named span subject exported typeOnly
  | some (.text "ExportDefaultSpecifier") => do
      return .default (← Ident.read (← v.get? "exported"))
  | some (.text "ExportNamespaceSpecifier") => do
      return .star (← Span.read (← v.get? "span")) (← ExportName.read (← v.get? "name"))
  | _ => none

namespace Tree

/-- The node of a symbol from its fields in grammar order. -/
def assemble (role : Role) (span : Span) (symbol : Symbol) (fields : List Tree) :
    Option Tree :=
  match symbol with
  | .scope kind =>
      some (.scope role kind span (fields.take kind.outerFields)
        (fields.drop kind.outerFields))
  | .node kind => some (.node role kind span fields)
  | .ident =>
      match fields with
      | [.context c, .leaf (.text n), .leaf (.bool o)] => some (.ident role ⟨span, ⟨n, c⟩, o⟩)
      | _ => none
  | .shorthand =>
      match fields with
      | [.context c, .leaf (.text n), .leaf (.bool o)] => some (.shorthand ⟨span, ⟨n, c⟩, o⟩)
      | _ => none
  | .binding =>
      match fields with
      | [.context c, .leaf (.text n), .leaf (.bool o), typing] =>
          some (.binding ⟨span, ⟨n, c⟩, o⟩ typing)
      | _ => none
  | .name =>
      match fields with
      | [.leaf (.text text)] => some (.name span text)
      | _ => none
  | .string =>
      match fields with
      | [.leaf (.text value), .leaf raw] =>
          (raw.optional? Value.toText?).map fun raw => .string ⟨span, value, raw⟩
      | _ => none
  | .paren =>
      match fields with
      | [inner] => some (.paren role span inner)
      | _ => none
  | .member =>
      match fields with
      | [object, property] => some (.member role span object property)
      | _ => none
  | .call =>
      match fields with
      | [.context ctxt, callee, .items args, typeArgs] =>
          some (.call span ctxt callee args typeArgs)
      | _ => none
  | .arg =>
      match fields with
      | [.leaf spread, value] =>
          (spread.optional? Span.read).map fun spread => .arg spread value
      | _ => none
  | .variables =>
      match fields with
      | [.context ctxt, .leaf (.text kind), .leaf (.bool declare), .items declarators] =>
          some (.variables role span ctxt kind declare declarators)
      | _ => none
  | .declarator =>
      match fields with
      | [target, init, .leaf (.bool definite)] => some (.declarator span target init definite)
      | _ => none
  | .objectPattern =>
      match fields with
      | [.items properties, .leaf (.bool optional), typing] =>
          some (.objectPattern span properties optional typing)
      | _ => none
  | .patternShorthand =>
      match fields with
      | [.binding key typing, value] => some (.patternShorthand span key typing value)
      | _ => none
  | .patternPair =>
      match fields with
      | [key, value] => some (.patternPair key value)
      | _ => none
  | .pair =>
      match fields with
      | [key, value] => some (.pair key value)
      | _ => none
  | .getter =>
      match fields with
      | [key, typing, body] => some (.getter span key typing body)
      | _ => none
  | .importDecl =>
      match fields with
      | [.leaf (.array specifiers), .string source, .leaf (.bool typeOnly), attributes,
          .leaf (.text phase)] =>
          (specifiers.mapM ImportSpecifier.read).map fun specifiers =>
            .importDecl span specifiers source typeOnly attributes phase
      | _ => none
  | .exportNamed =>
      match fields with
      | [.leaf (.array specifiers), .absent, .leaf (.bool typeOnly), attributes] =>
          (specifiers.mapM ExportSpecifier.read).map fun specifiers =>
            .exportNamed span specifiers none typeOnly attributes
      | [.leaf (.array specifiers), .string source, .leaf (.bool typeOnly), attributes] =>
          (specifiers.mapM ExportSpecifier.read).map fun specifiers =>
            .exportNamed span specifiers (some source) typeOnly attributes
      | _ => none
  | .exportDecl =>
      match fields with
      | [declaration] => some (.exportDecl span declaration)
      | _ => none
  | .moduleBlock =>
      match fields with
      | [.items body] => some (.moduleBlock span body)
      | _ => none

/-- What a value is when it stands in a field of a given type. -/
abbrev Reading := FieldType → Option Tree

namespace Reading

/-- Nothing is left out of a field that needs something. -/
def null : Reading
  | .leaf | .decimal => some (.leaf .null)
  | .optional _ | .manyOrNone _ => some .absent
  | _ => none

def scalar (v : Value) : Reading
  | .leaf => some (.leaf v)
  | .decimal => some (.leaf v.asDecimal)
  | .context => v.toNat?.map .context
  | _ => none

def array (vs : List Value) (readings : List Reading) : Reading
  | .leaf => some (.leaf (.array vs))
  | .many position | .manyOrNone position =>
      (readings.mapM fun (r : Reading) => r (.one position)).map .items
  | .sparse position => (readings.mapM fun (r : Reading) => r (.optional position)).map .items
  | _ => none

/-- A record at a position, given what each of its members reads as. -/
def node (record : Value) (readings : List (String × Reading)) (position : Position) :
    Option Tree := do
  let symbol ← position.symbol? ((record.get? "type").bind Value.toText?)
  let span ← match symbol.form.spanMember with
    | some spanMember => (record.get? spanMember).bind Span.read
    | none => some .generated
  let fields ← symbol.form.fields.mapM fun (field, type) =>
    ((readings.lookup field).getD null) type
  assemble (position.role symbol) span symbol fields

def object (record : Value) (readings : List (String × Reading)) : Reading
  | .leaf => some (.leaf record)
  | .one position | .optional position => node record readings position
  | _ => none

end Reading

mutual

def read : Value → Reading
  | .null => .null
  | .array vs => .array vs (readList vs)
  | .object members => .object (.object members) (readMembers members)
  | v => .scalar v

def readList : List Value → List Reading
  | [] => []
  | v :: rest => read v :: readList rest

def readMembers : List (String × Value) → List (String × Reading)
  | [] => []
  | (field, v) :: rest => (field, read v) :: readMembers rest

end

end Tree

private def bodyOf (v : Value) (position : Position) : Option (List Tree) := do
  match ← Tree.read (← v.get? "body") (.many position) with
  | .items body => some body
  | _ => none

def Module.read (v : Value) : Option Module := do
  let span ← Span.read (← v.get? "span")
  let body ← bodyOf v .item
  let interpreter ← (v.getOrNull "interpreter").optional? Value.toText?
  return ⟨span, body, interpreter⟩

def Script.read (v : Value) : Option Script := do
  let span ← Span.read (← v.get? "span")
  let body ← bodyOf v .stmt
  let interpreter ← (v.getOrNull "interpreter").optional? Value.toText?
  return ⟨span, body, interpreter⟩

def Program.read (v : Value) : Option Program :=
  match v.get? "type" with
  | some (.text "Module") => (Module.read v).map .module
  | some (.text "Script") => (Script.read v).map .script
  | _ => none

end MockImport
