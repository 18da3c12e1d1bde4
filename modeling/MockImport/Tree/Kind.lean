/-!
The kinds of syntax node that the expansion treats alike, the kinds that open a
lexical scope, and the roles in which a node can stand.
-/

namespace MockImport

/-- How the position of a node counts: as an expression, a statement, a module
declaration, an object property, or none of these. -/
inductive Role where
  | expr
  | stmt
  | decl
  | prop
  | plain
  deriving DecidableEq

/-- Nodes that open a lexical scope below the module root. -/
inductive ScopeKind where
  | blockStatement
  | forStatement
  | forInStatement
  | forOfStatement
  | whileStatement
  | doWhileStatement
  | switchStatement
  | catchClause
  | staticBlock
  | functionDeclaration
  | functionExpression
  | methodProperty
  | function
  | classDeclaration
  | classExpression
  | arrowFunctionExpression
  | setterProperty
  deriving DecidableEq

/-- Nodes that open no scope. An expansion looks through them and, the import keyword
apart, at none of them. -/
inductive Kind where
  | invalid
  | exportDefaultExpression
  | exportAllDeclaration
  | exportDefaultDeclaration
  | expressionStatement
  | emptyStatement
  | debuggerStatement
  | withStatement
  | returnStatement
  | labeledStatement
  | breakStatement
  | continueStatement
  | ifStatement
  | throwStatement
  | tryStatement
  | switchCase
  | usingDeclaration
  | usingDeclarator
  | thisExpression
  | arrayExpression
  | objectExpression
  | spreadElement
  | unaryExpression
  | updateExpression
  | binaryExpression
  | assignmentExpression
  | superPropExpression
  | conditionalExpression
  | newExpression
  | sequenceExpression
  | yieldExpression
  | metaProperty
  | awaitExpression
  | template
  | taggedTemplateExpression
  | templateElement
  | superKeyword
  | importKeyword
  | optionalChain
  | chainCall
  | assignmentProperty
  | computedName
  | arrayPattern
  | assignmentPattern
  | restElement
  | privateName
  | bigIntLiteral
  | booleanLiteral
  | nullLiteral
  | regExpLiteral
  | numericLiteral
  | parameter
  | classProperty
  | privateProperty
  | classMethod
  | privateMethod
  | constructorMember
  | decorator
  | autoAccessor
  | jsxMemberExpression
  | jsxNamespacedName
  | jsxEmptyExpression
  | jsxExpressionContainer
  | jsxSpreadChild
  | jsxOpeningElement
  | jsxClosingElement
  | jsxAttribute
  | jsxText
  | jsxElement
  | jsxFragment
  | jsxOpeningFragment
  | jsxClosingFragment
  | tsTyping
  | tsTypeParameterDeclaration
  | tsTypeParameter
  | tsTypeParameterInstantiation
  | tsParameterProperty
  | tsQualifiedName
  | tsCallSignatureDeclaration
  | tsConstructSignatureDeclaration
  | tsPropertySignature
  | tsGetterSignature
  | tsSetterSignature
  | tsMethodSignature
  | tsIndexSignature
  | tsKeywordType
  | tsThisType
  | tsFunctionType
  | tsConstructorType
  | tsTypeReference
  | tsTypePredicate
  | tsTypeQuery
  | tsImportCallOptions
  | tsImportType
  | tsTypeLiteral
  | tsArrayType
  | tsTupleType
  | tsTupleElement
  | tsOptionalType
  | tsRestType
  | tsUnionType
  | tsIntersectionType
  | tsConditionalType
  | tsInferType
  | tsParenthesizedType
  | tsTypeOperator
  | tsIndexedAccessType
  | tsMappedType
  | tsLiteralType
  | templateType
  | tsInterfaceDeclaration
  | tsInterfaceBody
  | tsExpressionWithTypeArguments
  | tsTypeAliasDeclaration
  | tsEnumDeclaration
  | tsEnumMember
  | tsModuleDeclaration
  | tsNamespaceDeclaration
  | tsImportEqualsDeclaration
  | tsExternalModuleReference
  | tsExportAssignment
  | tsNamespaceExportDeclaration
  | tsAsExpression
  | tsTypeAssertion
  | tsNonNullExpression
  | tsSatisfiesExpression
  | tsConstAssertion
  | tsInstantiation
  deriving DecidableEq

/-- Every scope-opening kind, in grammar order. -/
def ScopeKind.all : List ScopeKind :=
  [.blockStatement, .forStatement, .forInStatement, .forOfStatement, .whileStatement,
    .doWhileStatement, .switchStatement, .catchClause, .staticBlock, .functionDeclaration,
    .functionExpression, .methodProperty, .function, .classDeclaration, .classExpression,
    .arrowFunctionExpression, .setterProperty]

/-- Every other kind, in grammar order. -/
def Kind.all : List Kind :=
  [.invalid, .exportDefaultExpression, .exportAllDeclaration, .exportDefaultDeclaration,
    .expressionStatement, .emptyStatement, .debuggerStatement, .withStatement,
    .returnStatement, .labeledStatement, .breakStatement, .continueStatement, .ifStatement,
    .throwStatement, .tryStatement, .switchCase, .usingDeclaration, .usingDeclarator,
    .thisExpression, .arrayExpression, .objectExpression, .spreadElement, .unaryExpression,
    .updateExpression, .binaryExpression, .assignmentExpression, .superPropExpression,
    .conditionalExpression, .newExpression, .sequenceExpression, .yieldExpression,
    .metaProperty, .awaitExpression, .template, .taggedTemplateExpression, .templateElement,
    .superKeyword, .importKeyword, .optionalChain, .chainCall, .assignmentProperty,
    .computedName, .arrayPattern, .assignmentPattern, .restElement, .privateName,
    .bigIntLiteral, .booleanLiteral, .nullLiteral, .regExpLiteral, .numericLiteral,
    .parameter, .classProperty, .privateProperty, .classMethod, .privateMethod,
    .constructorMember, .decorator, .autoAccessor, .jsxMemberExpression, .jsxNamespacedName,
    .jsxEmptyExpression, .jsxExpressionContainer, .jsxSpreadChild, .jsxOpeningElement,
    .jsxClosingElement, .jsxAttribute, .jsxText, .jsxElement, .jsxFragment,
    .jsxOpeningFragment, .jsxClosingFragment, .tsTyping, .tsTypeParameterDeclaration,
    .tsTypeParameter, .tsTypeParameterInstantiation, .tsParameterProperty, .tsQualifiedName,
    .tsCallSignatureDeclaration, .tsConstructSignatureDeclaration, .tsPropertySignature,
    .tsGetterSignature, .tsSetterSignature, .tsMethodSignature, .tsIndexSignature,
    .tsKeywordType, .tsThisType, .tsFunctionType, .tsConstructorType, .tsTypeReference,
    .tsTypePredicate, .tsTypeQuery, .tsImportCallOptions, .tsImportType, .tsTypeLiteral,
    .tsArrayType, .tsTupleType, .tsTupleElement, .tsOptionalType, .tsRestType, .tsUnionType,
    .tsIntersectionType, .tsConditionalType, .tsInferType, .tsParenthesizedType,
    .tsTypeOperator, .tsIndexedAccessType, .tsMappedType, .tsLiteralType, .templateType,
    .tsInterfaceDeclaration, .tsInterfaceBody, .tsExpressionWithTypeArguments,
    .tsTypeAliasDeclaration, .tsEnumDeclaration, .tsEnumMember, .tsModuleDeclaration,
    .tsNamespaceDeclaration, .tsImportEqualsDeclaration, .tsExternalModuleReference,
    .tsExportAssignment, .tsNamespaceExportDeclaration, .tsAsExpression, .tsTypeAssertion,
    .tsNonNullExpression, .tsSatisfiesExpression, .tsConstAssertion, .tsInstantiation]

end MockImport
