import MockImport.Tree.Kind

/-!
The grammar of the interchange format: for every symbol the tag that names it, the
member that holds its span, and its fields in the order in which a traversal meets
them. A field's type says which symbols may stand there and in which role, for one
tag can name several symbols.
-/

namespace MockImport

/-- Where a node stands, as far as it decides how the node is read. -/
inductive Position where
  /-- The tag alone decides; an identifier stands for a variable or a label. -/
  | plain
  | expr
  | stmt
  /-- A module item: a statement or a module declaration. -/
  | item
  /-- A member of an object literal. -/
  | prop
  /-- The key of a property. -/
  | name
  /-- A pattern that cannot be an arbitrary expression. -/
  | binding
  /-- A pattern or, as an assignment target, an expression. -/
  | pattern
  | callee
  /-- The body of an arrow function. -/
  | body
  | forHead
  | forInit
  /-- A link of an optional chain. -/
  | chain
  | typeLiteral
  | argument
  | function
  | usingDeclarator
  deriving DecidableEq

inductive FieldType where
  | leaf
  | decimal
  | context
  | one (position : Position)
  | optional (position : Position)
  | many (position : Position)
  /-- A list with holes. -/
  | sparse (position : Position)
  /-- A list or nothing, which differs from an empty list. -/
  | manyOrNone (position : Position)

/-- How a symbol is written down. -/
structure Form where
  tag : Option String
  spanMember : Option String
  fields : List (String × FieldType)

/-- The usual form: a tag, a span, and the fields. -/
def Form.tagged (tag : String) (fields : List (String × FieldType)) : Form :=
  ⟨some tag, some "span", fields⟩

/-- The parts of a function, wherever they are written. -/
def functionFields : List (String × FieldType) :=
  [("params", .many .plain), ("decorators", .many .plain), ("ctxt", .context),
    ("body", .optional .plain), ("generator", .leaf), ("async", .leaf),
    ("typeParameters", .optional .plain), ("returnType", .optional .plain)]

/-- The parts of a class, wherever they are written. -/
def classFields : List (String × FieldType) :=
  [("ctxt", .context), ("decorators", .many .plain), ("body", .many .plain),
    ("superClass", .optional .expr), ("isAbstract", .leaf),
    ("typeParams", .optional .plain), ("superTypeParams", .optional .plain),
    ("implements", .many .plain)]

/-- The number of leading fields that lie outside the scope a node opens. -/
def ScopeKind.outerFields : ScopeKind → Nat
  | .functionDeclaration | .classDeclaration => 2
  | .functionExpression | .classExpression | .methodProperty | .setterProperty => 1
  | _ => 0

def ScopeKind.form : ScopeKind → Form
  | .blockStatement => .tagged "BlockStatement" [("ctxt", .context), ("stmts", .many .stmt)]
  | .forStatement => .tagged "ForStatement"
      [("init", .optional .forInit), ("test", .optional .expr), ("update", .optional .expr),
        ("body", .one .stmt)]
  | .forInStatement => .tagged "ForInStatement"
      [("left", .one .forHead), ("right", .one .expr), ("body", .one .stmt)]
  | .forOfStatement => .tagged "ForOfStatement"
      [("await", .leaf), ("left", .one .forHead), ("right", .one .expr), ("body", .one .stmt)]
  | .whileStatement => .tagged "WhileStatement" [("test", .one .expr), ("body", .one .stmt)]
  | .doWhileStatement => .tagged "DoWhileStatement"
      [("test", .one .expr), ("body", .one .stmt)]
  | .switchStatement => .tagged "SwitchStatement"
      [("discriminant", .one .expr), ("cases", .many .plain)]
  | .catchClause => .tagged "CatchClause"
      [("param", .optional .pattern), ("body", .one .plain)]
  | .staticBlock => .tagged "StaticBlock" [("body", .one .plain)]
  | .functionDeclaration =>
      .tagged "FunctionDeclaration"
        ([("identifier", .one .plain), ("declare", .leaf)] ++ functionFields)
  | .functionExpression =>
      .tagged "FunctionExpression"
        ([("identifier", .optional .plain)] ++ functionFields)
  | .methodProperty =>
      .tagged "MethodProperty"
        ([("key", .one .name)] ++ functionFields)
  | .function => ⟨none, some "span", functionFields⟩
  | .classDeclaration =>
      .tagged "ClassDeclaration"
        ([("identifier", .one .plain), ("declare", .leaf)] ++ classFields)
  | .classExpression =>
      .tagged "ClassExpression"
        ([("identifier", .optional .plain)] ++ classFields)
  | .arrowFunctionExpression => .tagged "ArrowFunctionExpression"
      [("ctxt", .context), ("params", .many .pattern), ("body", .one .body), ("async", .leaf),
        ("generator", .leaf), ("typeParameters", .optional .plain),
        ("returnType", .optional .plain)]
  | .setterProperty => .tagged "SetterProperty"
      [("key", .one .name), ("thisParam", .optional .pattern), ("param", .one .pattern),
        ("body", .optional .plain)]

def Kind.form : Kind → Form
  | .invalid => .tagged "Invalid" []
  | .exportDefaultExpression => .tagged "ExportDefaultExpression" [("expression", .one .expr)]
  | .exportAllDeclaration => .tagged "ExportAllDeclaration"
      [("source", .one .plain), ("typeOnly", .leaf), ("with", .optional .plain)]
  | .exportDefaultDeclaration => .tagged "ExportDefaultDeclaration" [("decl", .one .plain)]
  | .expressionStatement => .tagged "ExpressionStatement" [("expression", .one .expr)]
  | .emptyStatement => .tagged "EmptyStatement" []
  | .debuggerStatement => .tagged "DebuggerStatement" []
  | .withStatement => .tagged "WithStatement" [("object", .one .expr), ("body", .one .stmt)]
  | .returnStatement => .tagged "ReturnStatement" [("argument", .optional .expr)]
  | .labeledStatement => .tagged "LabeledStatement"
      [("label", .one .plain), ("body", .one .stmt)]
  | .breakStatement => .tagged "BreakStatement" [("label", .optional .plain)]
  | .continueStatement => .tagged "ContinueStatement" [("label", .optional .plain)]
  | .ifStatement => .tagged "IfStatement"
      [("test", .one .expr), ("consequent", .one .stmt), ("alternate", .optional .stmt)]
  | .throwStatement => .tagged "ThrowStatement" [("argument", .one .expr)]
  | .tryStatement => .tagged "TryStatement"
      [("block", .one .plain), ("handler", .optional .plain), ("finalizer", .optional .plain)]
  | .switchCase => .tagged "SwitchCase"
      [("test", .optional .expr), ("consequent", .many .stmt)]
  | .usingDeclaration => .tagged "UsingDeclaration"
      [("isAwait", .leaf), ("decls", .many .usingDeclarator)]
  | .usingDeclarator => .tagged "VariableDeclarator"
      [("id", .one .pattern), ("init", .optional .expr), ("definite", .leaf)]
  | .thisExpression => .tagged "ThisExpression" []
  | .arrayExpression => .tagged "ArrayExpression" [("elements", .sparse .argument)]
  | .objectExpression => .tagged "ObjectExpression" [("properties", .many .prop)]
  | .spreadElement => ⟨some "SpreadElement", some "spread", [("arguments", .one .expr)]⟩
  | .unaryExpression => .tagged "UnaryExpression"
      [("operator", .leaf), ("argument", .one .expr)]
  | .updateExpression => .tagged "UpdateExpression"
      [("operator", .leaf), ("prefix", .leaf), ("argument", .one .expr)]
  | .binaryExpression => .tagged "BinaryExpression"
      [("operator", .leaf), ("left", .one .expr), ("right", .one .expr)]
  | .assignmentExpression => .tagged "AssignmentExpression"
      [("operator", .leaf), ("left", .one .binding), ("right", .one .expr)]
  | .superPropExpression => .tagged "SuperPropExpression"
      [("obj", .one .plain), ("property", .one .name)]
  | .conditionalExpression => .tagged "ConditionalExpression"
      [("test", .one .expr), ("consequent", .one .expr), ("alternate", .one .expr)]
  | .newExpression => .tagged "NewExpression"
      [("ctxt", .context), ("callee", .one .expr), ("arguments", .manyOrNone .argument),
        ("typeArguments", .optional .plain)]
  | .sequenceExpression => .tagged "SequenceExpression" [("expressions", .many .expr)]
  | .yieldExpression => .tagged "YieldExpression"
      [("argument", .optional .expr), ("delegate", .leaf)]
  | .metaProperty => .tagged "MetaProperty" [("kind", .leaf)]
  | .awaitExpression => .tagged "AwaitExpression" [("argument", .one .expr)]
  | .template => .tagged "TemplateLiteral"
      [("expressions", .many .expr), ("quasis", .many .plain)]
  | .taggedTemplateExpression => .tagged "TaggedTemplateExpression"
      [("ctxt", .context), ("tag", .one .expr), ("typeParameters", .optional .plain),
        ("template", .one .plain)]
  | .templateElement => .tagged "TemplateElement"
      [("tail", .leaf), ("cooked", .leaf), ("raw", .leaf)]
  | .superKeyword => .tagged "Super" []
  | .importKeyword => .tagged "Import" [("phase", .leaf)]
  | .optionalChain => .tagged "OptionalChainingExpression"
      [("optional", .leaf), ("base", .one .chain)]
  | .chainCall => .tagged "CallExpression"
      [("ctxt", .context), ("callee", .one .expr), ("arguments", .many .argument),
        ("typeArguments", .optional .plain)]
  | .assignmentProperty => .tagged "AssignmentProperty"
      [("key", .one .plain), ("value", .one .expr)]
  | .computedName => .tagged "Computed" [("expression", .one .expr)]
  | .arrayPattern => .tagged "ArrayPattern"
      [("elements", .sparse .pattern), ("optional", .leaf),
        ("typeAnnotation", .optional .plain)]
  | .assignmentPattern => .tagged "AssignmentPattern"
      [("left", .one .pattern), ("right", .one .expr)]
  | .restElement => .tagged "RestElement"
      [("rest", .leaf), ("argument", .one .pattern), ("typeAnnotation", .optional .plain)]
  | .privateName => .tagged "PrivateName" [("value", .leaf)]
  | .bigIntLiteral => .tagged "BigIntLiteral" [("value", .leaf), ("raw", .leaf)]
  | .booleanLiteral => .tagged "BooleanLiteral" [("value", .leaf)]
  | .nullLiteral => .tagged "NullLiteral" []
  | .regExpLiteral => .tagged "RegExpLiteral" [("pattern", .leaf), ("flags", .leaf)]
  | .numericLiteral => .tagged "NumericLiteral" [("value", .decimal), ("raw", .leaf)]
  | .parameter => .tagged "Parameter" [("decorators", .many .plain), ("pat", .one .pattern)]
  | .classProperty => .tagged "ClassProperty"
      [("key", .one .name), ("value", .optional .expr), ("typeAnnotation", .optional .plain),
        ("isStatic", .leaf), ("decorators", .many .plain), ("accessibility", .leaf),
        ("isAbstract", .leaf), ("isOptional", .leaf), ("isOverride", .leaf),
        ("readonly", .leaf), ("declare", .leaf), ("definite", .leaf)]
  | .privateProperty => .tagged "PrivateProperty"
      [("ctxt", .context), ("key", .one .plain), ("value", .optional .expr),
        ("typeAnnotation", .optional .plain), ("isStatic", .leaf),
        ("decorators", .many .plain), ("accessibility", .leaf), ("isOptional", .leaf),
        ("isOverride", .leaf), ("readonly", .leaf), ("definite", .leaf)]
  | .classMethod => .tagged "ClassMethod"
      [("key", .one .name), ("function", .one .function), ("kind", .leaf), ("isStatic", .leaf),
        ("accessibility", .leaf), ("isAbstract", .leaf), ("isOptional", .leaf),
        ("isOverride", .leaf)]
  | .privateMethod => .tagged "PrivateMethod"
      [("key", .one .plain), ("function", .one .function), ("kind", .leaf),
        ("isStatic", .leaf), ("accessibility", .leaf), ("isAbstract", .leaf),
        ("isOptional", .leaf), ("isOverride", .leaf)]
  | .constructorMember => .tagged "Constructor"
      [("ctxt", .context), ("key", .one .name), ("params", .many .plain),
        ("body", .optional .plain), ("accessibility", .leaf), ("isOptional", .leaf)]
  | .decorator => .tagged "Decorator" [("expression", .one .expr)]
  | .autoAccessor => .tagged "AutoAccessor"
      [("key", .one .name), ("value", .optional .expr), ("typeAnnotation", .optional .plain),
        ("isStatic", .leaf), ("decorators", .many .plain), ("accessibility", .leaf),
        ("isAbstract", .leaf), ("isOverride", .leaf), ("definite", .leaf)]
  | .jsxMemberExpression => .tagged "JSXMemberExpression"
      [("object", .one .plain), ("property", .one .name)]
  | .jsxNamespacedName => .tagged "JSXNamespacedName"
      [("namespace", .one .name), ("name", .one .name)]
  | .jsxEmptyExpression => .tagged "JSXEmptyExpression" []
  | .jsxExpressionContainer => .tagged "JSXExpressionContainer" [("expression", .one .expr)]
  | .jsxSpreadChild => .tagged "JSXSpreadChild" [("expression", .one .expr)]
  | .jsxOpeningElement => .tagged "JSXOpeningElement"
      [("name", .one .plain), ("attributes", .many .plain), ("selfClosing", .leaf),
        ("typeArguments", .optional .plain)]
  | .jsxClosingElement => .tagged "JSXClosingElement" [("name", .one .plain)]
  | .jsxAttribute => .tagged "JSXAttribute" [("name", .one .name), ("value", .optional .plain)]
  | .jsxText => .tagged "JSXText" [("value", .leaf), ("raw", .leaf)]
  | .jsxElement => .tagged "JSXElement"
      [("opening", .one .plain), ("children", .many .plain), ("closing", .optional .plain)]
  | .jsxFragment => .tagged "JSXFragment"
      [("opening", .one .plain), ("children", .many .plain), ("closing", .one .plain)]
  | .jsxOpeningFragment => .tagged "JSXOpeningFragment" []
  | .jsxClosingFragment => .tagged "JSXClosingFragment" []
  | .tsTyping => .tagged "TsTypeAnnotation" [("typeAnnotation", .one .plain)]
  | .tsTypeParameterDeclaration => .tagged "TsTypeParameterDeclaration"
      [("parameters", .many .plain)]
  | .tsTypeParameter => .tagged "TsTypeParameter"
      [("name", .one .plain), ("in", .leaf), ("out", .leaf), ("const", .leaf),
        ("constraint", .optional .plain), ("default", .optional .plain)]
  | .tsTypeParameterInstantiation => .tagged "TsTypeParameterInstantiation"
      [("params", .many .plain)]
  | .tsParameterProperty => .tagged "TsParameterProperty"
      [("decorators", .many .plain), ("accessibility", .leaf), ("override", .leaf),
        ("readonly", .leaf), ("param", .one .binding)]
  | .tsQualifiedName => .tagged "TsQualifiedName"
      [("left", .one .plain), ("right", .one .name)]
  | .tsCallSignatureDeclaration => .tagged "TsCallSignatureDeclaration"
      [("params", .many .binding), ("typeAnnotation", .optional .plain),
        ("typeParams", .optional .plain)]
  | .tsConstructSignatureDeclaration => .tagged "TsConstructSignatureDeclaration"
      [("params", .many .binding), ("typeAnnotation", .optional .plain),
        ("typeParams", .optional .plain)]
  | .tsPropertySignature => .tagged "TsPropertySignature"
      [("readonly", .leaf), ("key", .one .expr), ("computed", .leaf), ("optional", .leaf),
        ("typeAnnotation", .optional .plain)]
  | .tsGetterSignature => .tagged "TsGetterSignature"
      [("key", .one .expr), ("computed", .leaf), ("typeAnnotation", .optional .plain)]
  | .tsSetterSignature => .tagged "TsSetterSignature"
      [("key", .one .expr), ("computed", .leaf), ("param", .one .binding)]
  | .tsMethodSignature => .tagged "TsMethodSignature"
      [("key", .one .expr), ("computed", .leaf), ("optional", .leaf),
        ("params", .many .binding), ("typeAnn", .optional .plain),
        ("typeParams", .optional .plain)]
  | .tsIndexSignature => .tagged "TsIndexSignature"
      [("params", .many .binding), ("typeAnnotation", .optional .plain), ("readonly", .leaf),
        ("static", .leaf)]
  | .tsKeywordType => .tagged "TsKeywordType" [("kind", .leaf)]
  | .tsThisType => .tagged "TsThisType" []
  | .tsFunctionType => .tagged "TsFunctionType"
      [("params", .many .binding), ("typeParams", .optional .plain),
        ("typeAnnotation", .one .plain)]
  | .tsConstructorType => .tagged "TsConstructorType"
      [("params", .many .binding), ("typeParams", .optional .plain),
        ("typeAnnotation", .one .plain), ("isAbstract", .leaf)]
  | .tsTypeReference => .tagged "TsTypeReference"
      [("typeName", .one .plain), ("typeParams", .optional .plain)]
  | .tsTypePredicate => .tagged "TsTypePredicate"
      [("asserts", .leaf), ("paramName", .one .plain), ("typeAnnotation", .optional .plain)]
  | .tsTypeQuery => .tagged "TsTypeQuery"
      [("exprName", .one .plain), ("typeArguments", .optional .plain)]
  | .tsImportCallOptions => .tagged "TsImportCallOptions" [("with", .one .plain)]
  | .tsImportType => .tagged "TsImportType"
      [("argument", .one .plain), ("qualifier", .optional .plain),
        ("typeArguments", .optional .plain), ("attributes", .optional .plain)]
  | .tsTypeLiteral => .tagged "TsTypeLiteral" [("members", .many .plain)]
  | .tsArrayType => .tagged "TsArrayType" [("elemType", .one .plain)]
  | .tsTupleType => .tagged "TsTupleType" [("elemTypes", .many .plain)]
  | .tsTupleElement => .tagged "TsTupleElement"
      [("label", .optional .pattern), ("ty", .one .plain)]
  | .tsOptionalType => .tagged "TsOptionalType" [("typeAnnotation", .one .plain)]
  | .tsRestType => .tagged "TsRestType" [("typeAnnotation", .one .plain)]
  | .tsUnionType => .tagged "TsUnionType" [("types", .many .plain)]
  | .tsIntersectionType => .tagged "TsIntersectionType" [("types", .many .plain)]
  | .tsConditionalType => .tagged "TsConditionalType"
      [("checkType", .one .plain), ("extendsType", .one .plain), ("trueType", .one .plain),
        ("falseType", .one .plain)]
  | .tsInferType => .tagged "TsInferType" [("typeParam", .one .plain)]
  | .tsParenthesizedType => .tagged "TsParenthesizedType" [("typeAnnotation", .one .plain)]
  | .tsTypeOperator => .tagged "TsTypeOperator"
      [("op", .leaf), ("typeAnnotation", .one .plain)]
  | .tsIndexedAccessType => .tagged "TsIndexedAccessType"
      [("readonly", .leaf), ("objectType", .one .plain), ("indexType", .one .plain)]
  | .tsMappedType => .tagged "TsMappedType"
      [("readonly", .leaf), ("typeParam", .one .plain), ("nameType", .optional .plain),
        ("optional", .leaf), ("typeAnnotation", .optional .plain)]
  | .tsLiteralType => .tagged "TsLiteralType" [("literal", .one .typeLiteral)]
  | .templateType => .tagged "TemplateLiteral"
      [("types", .many .plain), ("quasis", .many .plain)]
  | .tsInterfaceDeclaration => .tagged "TsInterfaceDeclaration"
      [("id", .one .plain), ("declare", .leaf), ("typeParams", .optional .plain),
        ("extends", .many .plain), ("body", .one .plain)]
  | .tsInterfaceBody => .tagged "TsInterfaceBody" [("body", .many .plain)]
  | .tsExpressionWithTypeArguments => .tagged "TsExpressionWithTypeArguments"
      [("expression", .one .expr), ("typeArguments", .optional .plain)]
  | .tsTypeAliasDeclaration => .tagged "TsTypeAliasDeclaration"
      [("declare", .leaf), ("id", .one .plain), ("typeParams", .optional .plain),
        ("typeAnnotation", .one .plain)]
  | .tsEnumDeclaration => .tagged "TsEnumDeclaration"
      [("declare", .leaf), ("isConst", .leaf), ("id", .one .plain), ("members", .many .plain)]
  | .tsEnumMember => .tagged "TsEnumMember" [("id", .one .plain), ("init", .optional .expr)]
  | .tsModuleDeclaration => .tagged "TsModuleDeclaration"
      [("declare", .leaf), ("global", .leaf), ("namespace", .leaf), ("id", .one .plain),
        ("body", .optional .plain)]
  | .tsNamespaceDeclaration => .tagged "TsNamespaceDeclaration"
      [("declare", .leaf), ("global", .leaf), ("id", .one .plain), ("body", .one .plain)]
  | .tsImportEqualsDeclaration => .tagged "TsImportEqualsDeclaration"
      [("isExport", .leaf), ("isTypeOnly", .leaf), ("id", .one .plain),
        ("moduleRef", .one .plain)]
  | .tsExternalModuleReference => .tagged "TsExternalModuleReference"
      [("expression", .one .plain)]
  | .tsExportAssignment => .tagged "TsExportAssignment" [("expression", .one .expr)]
  | .tsNamespaceExportDeclaration => .tagged "TsNamespaceExportDeclaration"
      [("id", .one .plain)]
  | .tsAsExpression => .tagged "TsAsExpression"
      [("expression", .one .expr), ("typeAnnotation", .one .plain)]
  | .tsTypeAssertion => .tagged "TsTypeAssertion"
      [("expression", .one .expr), ("typeAnnotation", .one .plain)]
  | .tsNonNullExpression => .tagged "TsNonNullExpression" [("expression", .one .expr)]
  | .tsSatisfiesExpression => .tagged "TsSatisfiesExpression"
      [("expression", .one .expr), ("typeAnnotation", .one .plain)]
  | .tsConstAssertion => .tagged "TsConstAssertion" [("expression", .one .expr)]
  | .tsInstantiation => .tagged "TsInstantiation"
      [("expression", .one .expr), ("typeArguments", .one .plain)]

/-- The symbols of the grammar: those with a constructor of their own, and the rest. -/
inductive Symbol where
  | ident
  | binding
  | name
  | shorthand
  | string
  | paren
  | member
  | call
  | arg
  | variables
  | declarator
  | objectPattern
  | patternShorthand
  | patternPair
  | pair
  | getter
  | importDecl
  | exportNamed
  | exportDecl
  | moduleBlock
  | scope (kind : ScopeKind)
  | node (kind : Kind)
  deriving DecidableEq

namespace Symbol

def form : Symbol → Form
  | .ident | .shorthand =>
      .tagged "Identifier" [("ctxt", .context), ("value", .leaf), ("optional", .leaf)]
  | .binding =>
      .tagged "Identifier"
        [("ctxt", .context), ("value", .leaf), ("optional", .leaf),
          ("typeAnnotation", .optional .plain)]
  | .name => .tagged "Identifier" [("value", .leaf)]
  | .string => .tagged "StringLiteral" [("value", .leaf), ("raw", .leaf)]
  | .paren => .tagged "ParenthesisExpression" [("expression", .one .expr)]
  | .member => .tagged "MemberExpression" [("object", .one .expr), ("property", .one .name)]
  | .call =>
      .tagged "CallExpression"
        [("ctxt", .context), ("callee", .one .callee), ("arguments", .many .argument),
          ("typeArguments", .optional .plain)]
  | .arg => ⟨none, none, [("spread", .leaf), ("expression", .one .expr)]⟩
  | .variables =>
      .tagged "VariableDeclaration"
        [("ctxt", .context), ("kind", .leaf), ("declare", .leaf),
          ("declarations", .many .plain)]
  | .declarator =>
      .tagged "VariableDeclarator"
        [("id", .one .pattern), ("init", .optional .expr), ("definite", .leaf)]
  | .objectPattern =>
      .tagged "ObjectPattern"
        [("properties", .many .plain), ("optional", .leaf),
          ("typeAnnotation", .optional .plain)]
  | .patternShorthand =>
      .tagged "AssignmentPatternProperty"
        [("key", .one .binding), ("value", .optional .expr)]
  | .patternPair =>
      ⟨some "KeyValuePatternProperty", none, [("key", .one .name), ("value", .one .pattern)]⟩
  | .pair =>
      ⟨some "KeyValueProperty", none, [("key", .one .name), ("value", .one .expr)]⟩
  | .getter =>
      .tagged "GetterProperty"
        [("key", .one .name), ("typeAnnotation", .optional .plain),
          ("body", .optional .plain)]
  | .importDecl =>
      .tagged "ImportDeclaration"
        [("specifiers", .leaf), ("source", .one .plain), ("typeOnly", .leaf),
          ("with", .optional .plain), ("phase", .leaf)]
  | .exportNamed =>
      .tagged "ExportNamedDeclaration"
        [("specifiers", .leaf), ("source", .optional .plain), ("typeOnly", .leaf),
          ("with", .optional .plain)]
  | .exportDecl => .tagged "ExportDeclaration" [("declaration", .one .plain)]
  | .moduleBlock => .tagged "TsModuleBlock" [("body", .many .item)]
  | .scope kind => kind.form
  | .node kind => kind.form

/-- The symbols that a tag alone can name. -/
def tagged : List Symbol :=
  ([.string, .paren, .member, .call, .variables, .declarator, .objectPattern,
    .patternShorthand, .patternPair, .pair, .getter, .importDecl, .exportNamed,
    .exportDecl, .moduleBlock] : List Symbol) ++ ScopeKind.all.map .scope ++ Kind.all.map .node

def ofTag? (tag : String) : Option Symbol :=
  tagged.find? fun s => s.form.tag = some tag

/-- Declarations that only a module can hold. -/
def isModuleDecl : Symbol → Bool
  | .importDecl | .exportNamed | .exportDecl | .node .exportDefaultDeclaration
  | .node .exportDefaultExpression | .node .exportAllDeclaration
  | .node .tsImportEqualsDeclaration | .node .tsExportAssignment
  | .node .tsNamespaceExportDeclaration => true
  | _ => false

/-- Patterns, as opposed to the expressions that may stand in their place. -/
def isPattern : Symbol → Bool
  | .binding | .objectPattern | .node .arrayPattern | .node .restElement
  | .node .assignmentPattern => true
  | _ => false

end Symbol

namespace Position

/-- What an identifier is at a position. -/
def identifier : Position → Symbol
  | .name => .name
  | .prop => .shorthand
  | .binding | .pattern | .forHead => .binding
  | _ => .ident

/-- The symbol of a node with the given tag. Arguments and the functions of class
members carry no tag. -/
def symbol? : Position → Option String → Option Symbol
  | .argument, _ => some .arg
  | .function, _ => some (.scope .function)
  | _, none => none
  | .chain, some "CallExpression" => some (.node .chainCall)
  | .typeLiteral, some "TemplateLiteral" => some (.node .templateType)
  | .usingDeclarator, some _ => some (.node .usingDeclarator)
  | position, some tag =>
      if tag = "Identifier" then some position.identifier else Symbol.ofTag? tag

/-- The role of a symbol at a position. -/
def role (position : Position) (s : Symbol) : Role :=
  let unlessPlain (plain : Bool) (role : Role) : Role := if plain then .plain else role
  match position with
  | .expr => .expr
  | .stmt => .stmt
  | .item => if s.isModuleDecl then .decl else .stmt
  | .prop => unlessPlain (s = .node .spreadElement) .prop
  | .pattern => unlessPlain s.isPattern .expr
  | .callee => unlessPlain (s = .node .superKeyword || s = .node .importKeyword) .expr
  | .body => unlessPlain (s = .scope .blockStatement) .expr
  | .forHead =>
      unlessPlain (s.isPattern || s = .variables || s = .node .usingDeclaration) .expr
  | .forInit => unlessPlain (s = .variables) .expr
  | _ => .plain

end Position
end MockImport
