import MockImport.Tree.Basic
import MockImport.Tree.Grammar

/-!
Syntax trees written as interchange values. A tree knows its symbols, so writing
needs no positions: the form of a symbol gives the names of its fields.
-/

namespace MockImport

def Span.write (s : Span) : Value := .object [("start", .nat s.start), ("end", .nat s.stop)]

def Ident.fields (id : Ident) : List Value :=
  [.nat id.var.ctxt, .text id.var.name, .bool id.optional]

def StringLiteral.fields (s : StringLiteral) : List Value :=
  [.text s.value, .ofOption .text s.raw]

/-- A record of the given form. -/
def Form.record (form : Form) (span : Span) (fields : List Value) : Value :=
  .object (form.tag.toList.map (fun tag => ("type", .text tag)) ++
    form.spanMember.toList.map (fun name => (name, span.write)) ++
    (form.fields.map (·.1)).zip fields)

def Ident.write (id : Ident) : Value := Symbol.ident.form.record id.span id.fields

def StringLiteral.write (s : StringLiteral) : Value := Symbol.string.form.record s.span s.fields

def ExportName.write : ExportName → Value
  | .ident id => id.write
  | .string s => s.write

def ImportSpecifier.write : ImportSpecifier → Value
  | .named span binding imported typeOnly => .object
      [("type", .text "ImportSpecifier"), ("span", span.write), ("local", binding.write),
        ("imported", .ofOption ExportName.write imported), ("isTypeOnly", .bool typeOnly)]
  | .default span binding => .object
      [("type", .text "ImportDefaultSpecifier"), ("span", span.write),
        ("local", binding.write)]
  | .star span binding => .object
      [("type", .text "ImportNamespaceSpecifier"), ("span", span.write),
        ("local", binding.write)]

def ExportSpecifier.write : ExportSpecifier → Value
  | .named span subject exported typeOnly => .object
      [("type", .text "ExportSpecifier"), ("span", span.write), ("orig", subject.write),
        ("exported", .ofOption ExportName.write exported), ("isTypeOnly", .bool typeOnly)]
  | .default exported => .object
      [("type", .text "ExportDefaultSpecifier"), ("exported", exported.write)]
  | .star span name => .object
      [("type", .text "ExportNamespaceSpecifier"), ("span", span.write),
        ("name", name.write)]

namespace Tree

mutual

def write : Tree → Value
  | .absent => .null
  | .leaf value => value
  | .context ctxt => .nat ctxt
  | .items trees => .array (writeList trees)
  | .ident _ id => id.write
  | .shorthand id => id.write
  | .binding id typing => Symbol.binding.form.record id.span (id.fields ++ [write typing])
  | .name span text => Symbol.name.form.record span [.text text]
  | .string literal => literal.write
  | .paren _ span inner => Symbol.paren.form.record span [write inner]
  | .member _ span object property =>
      Symbol.member.form.record span [write object, write property]
  | .call span ctxt callee args typeArgs =>
      Symbol.call.form.record span
        [.nat ctxt, write callee, .array (writeList args), write typeArgs]
  | .arg spread value =>
      Symbol.arg.form.record .generated [.ofOption Span.write spread, write value]
  | .variables _ span ctxt kind declare declarators =>
      Symbol.variables.form.record span
        [.nat ctxt, .text kind, .bool declare, .array (writeList declarators)]
  | .declarator span target init definite =>
      Symbol.declarator.form.record span [write target, write init, .bool definite]
  | .objectPattern span properties optional typing =>
      Symbol.objectPattern.form.record span
        [.array (writeList properties), .bool optional, write typing]
  | .patternShorthand span key typing value =>
      Symbol.patternShorthand.form.record span
        [Symbol.binding.form.record key.span (key.fields ++ [write typing]), write value]
  | .patternPair key value =>
      Symbol.patternPair.form.record .generated [write key, write value]
  | .pair key value => Symbol.pair.form.record .generated [write key, write value]
  | .getter span key typing body =>
      Symbol.getter.form.record span [write key, write typing, write body]
  | .importDecl span specifiers source typeOnly attributes phase =>
      Symbol.importDecl.form.record span
        [.array (specifiers.map ImportSpecifier.write), source.write, .bool typeOnly,
          write attributes, .text phase]
  | .exportNamed span specifiers source typeOnly attributes =>
      Symbol.exportNamed.form.record span
        [.array (specifiers.map ExportSpecifier.write), .ofOption StringLiteral.write source,
          .bool typeOnly, write attributes]
  | .exportDecl span declaration =>
      Symbol.exportDecl.form.record span [write declaration]
  | .moduleBlock span body =>
      Symbol.moduleBlock.form.record span [.array (writeList body)]
  | .scope _ kind span outer inner =>
      kind.form.record span (writeList outer ++ writeList inner)
  | .node _ kind span fields => kind.form.record span (writeList fields)

def writeList : List Tree → List Value
  | [] => []
  | t :: rest => write t :: writeList rest

end

end Tree

private def programRecord (tag : String) (span : Span) (body : List Tree)
    (interpreter : Option String) : Value :=
  .object [("type", .text tag), ("span", span.write),
    ("body", .array (Tree.writeList body)), ("interpreter", .ofOption .text interpreter)]

def Module.write (m : Module) : Value := programRecord "Module" m.span m.body m.interpreter

def Script.write (s : Script) : Value := programRecord "Script" s.span s.body s.interpreter

def Program.write : Program → Value
  | .module m => m.write
  | .script s => s.write

end MockImport
