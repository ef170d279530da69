import JavaDiagram.Java.Rule

/-!
# The grammar of Java

One rule for each phrase of the language. Keywords are ordinary words: a word is a name wherever no
construct that starts with that keyword may stand, so each place lists the words that are no names
there.

Damaged sources are read on token by token. A list of members or statements takes a token that
starts none of its items as an error and goes on behind it; an absent semicolon is an error where it
is missed. So the damage stays inside the braces that hold it.
-/

namespace JavaDiagram.Java.Grammar

open Rule

/-! ### Words -/

/-- Types that are keywords. -/
def basicTypes : List String :=
  ["byte", "short", "int", "long", "char", "float", "double", "boolean", "void"]

/-- Modifiers that are a single word. -/
def modifierWords : List String :=
  ["public", "protected", "private", "abstract", "static", "final", "strictfp", "default",
    "synchronized", "native", "transient", "volatile", "sealed"]

/-- Words that are no names where a member may start. -/
def memberWords : List String :=
  basicTypes ++ modifierWords ++ ["class", "interface", "enum", "record"]

/-- Words that are no names where an operand may start. -/
def operandWords : List String :=
  basicTypes ++ ["new", "this", "super", "true", "false", "null", "switch"]

/-- Words that start a statement but no operand. -/
def statementStarts : List String :=
  ["public", "protected", "private", "abstract", "static", "final", "strictfp", "default",
    "synchronized", "native", "transient", "volatile", "class", "interface", "enum", "assert",
    "break", "case", "continue", "do", "for", "if", "import", "package", "return", "throw", "try",
    "while"]

/-- Words that are no names where a statement may start. -/
def statementWords : List String :=
  operandWords ++ statementStarts

/-- Words that are no names behind a dot in an expression. -/
def dotWords : List String :=
  ["new", "this", "super", "class"]

/-- The end of something in braces: the brace, or the end of the source in its place. -/
def closeBrace : Rule :=
  orElse "\x7d" (all [atEnd, fault])

/-- A semicolon, or an error where it is absent. -/
def semicolon : Rule :=
  orElse ";" fault

/-- Items up to a closing brace. What is no item is an error. -/
def itemsInBraces (item : Rule) : Rule :=
  all ["\x7b", many (choice [item, all [notAhead "\x7d", skip]]), closeBrace]

/-! ### Names, annotations and modifiers -/

def qualifiedName : Rule :=
  node .qualifiedName (separated "." anyName)

/-- One argument of an annotation, with its name. -/
def namedElement : Rule :=
  all [anyName, "=", Phrase.elementValue]

/-- `@Name`, perhaps with arguments. -/
def annotationUse : Rule :=
  node .annotationUse
    (all ["@", notAhead (glued "interface"), label .name qualifiedName,
      optional (parens (choice [
        -- Arguments count as named only if all are.
        all [separated "," namedElement, ahead ")"],
        Phrase.elementValue,
        empty]))])

/-- The value of an annotation's argument. -/
def elementValue : Rule :=
  choice [
    Phrase.annotationUse,
    all ["\x7b", commas Phrase.elementValue, optional ",", "\x7d"],
    Phrase.expression]

def annotations : Rule := many Phrase.annotationUse

/-- Modifiers and annotations in front of a declaration. -/
def modifiers : Rule :=
  node .modifiers (many1 (choice [
    Phrase.annotationUse,
    oneOf modifierWords,
    -- One word in three tokens.
    all ["non", glued "-", glued "sealed"]]))

/-! ### Types -/

/-- A type without brackets behind it, as one node. Its first name is none of the given words. -/
def plainType (except : List String) : Rule :=
  grow
    (node .type (orElse (oneOf basicTypes) (nameExcept (basicTypes ++ except))))
    [.mk [] .type none (orElse
      Phrase.typeArguments
      (all [".", annotations, nameExcept dotWords]))]

/-- Pairs of square brackets. -/
def brackets : Rule :=
  many1 (all [annotations, "[", "]"])

/-- A type whose first name is none of the given words. -/
def typeExcept (except : List String) : Rule :=
  node .type (all [plainType except, optional brackets])

def type : Rule := typeExcept []

/-- A type, perhaps with annotations in front of it. -/
def annotatedType : Rule :=
  node .type (all [annotations, plainType [], optional brackets])

/-- `?` with a bound. -/
def wildcard : Rule :=
  all [annotations, "?", optional (all [oneOf ["extends", "super"], annotatedType])]

/-- Types between angle brackets. -/
def typeArguments : Rule :=
  all ["<", commas (orElse wildcard annotatedType), ">"]

def typeParameters : Rule :=
  let bound := all ["extends", separated "&" annotatedType]
  all ["<", separated "," (all [annotations, anyName, optional bound]), ">"]

def typeList : Rule :=
  node .typeList (separated "," annotatedType)

/-! ### Variables and parameters -/

/-- The name of a variable, with brackets behind it. -/
def variableName (except : List String) : Rule :=
  all [label .name (nameExcept except), optional brackets]

def initializer : Rule :=
  all ["=", orElse Phrase.arrayInitializer Phrase.expression]

/-- Values in braces. -/
def arrayInitializer : Rule :=
  all ["\x7b", commas (orElse Phrase.arrayInitializer Phrase.expression), optional ",", "\x7d"]

/-- Variables with commas between them; the first is none of the given words. -/
def declarators (except : List String) : Rule :=
  let declarator (words : List String) : Rule :=
    label .declarator
      (node .variableDeclarator (all [variableName words, optional initializer]))
  all [declarator except, many (all [",", declarator []])]

def formalParameter : Rule :=
  node .formalParameter (all [optional modifiers, label .type type, variableName ["this"]])

/-- A parameter that takes any number of values. -/
def spreadParameter : Rule :=
  node .spreadParameter (all [optional modifiers, type, "...", annotations,
    node .variableDeclarator (all [variableName [], optional initializer])])

/-- The parameter that stands for the object itself. -/
def receiverParameter : Rule :=
  all [annotations, type, many (all [anyName, "."]), "this"]

/-- Parameters in parentheses. The object itself comes first, if it is among them. -/
def formalParameters : Rule :=
  let parameters := commas (orElse spreadParameter formalParameter)
  -- A parameter of the same type fits `A A.this`, too, up to the dot.
  node .formalParameters
    (parens (orElse (all [receiverParameter, optional (all [",", parameters])]) parameters))

/-! ### Expressions -/

/-- Operators between two operands. -/
def binaryOperator : Rule :=
  choice [
    all [">", glued ">", glued ">", notAhead (glued ">=")],
    all [">", glued ">", notAhead (glued ">=")],
    all [">", notAhead (glued ">=")],
    oneOf ["<", ">=", "<=", "==", "!=", "&&", "||", "+", "-", "*", "/", "&", "|", "^", "%", "<<"]]

/-- Operators that change a variable. -/
def assignmentOperator : Rule :=
  choice [
    oneOf ["=", "+=", "-=", "*=", "/=", "&=", "|=", "^=", "%=", "<<="],
    all [">", glued ">", glued ">="],
    all [">", glued ">="]]

/-- A type test, perhaps with a name for the value. -/
def instanceTest : Rule :=
  all ["instanceof", optional "final",
    orElse Phrase.pattern (all [annotatedType, optional (nameExcept [])])]

/-- An expression built from operands of one kind. -/
def expressionOf (operand : Rule) (whole : Phrase) : Rule :=
  all [operand, many (choice [
    instanceTest,
    all [binaryOperator, operand],
    all ["?", Phrase.expression, ":", whole]])]

def lambdaBody : Rule :=
  orElse Phrase.block Phrase.expression

def lambda : Rule :=
  let names := parens (separated "," anyName)
  all [choice [nameExcept operandWords, all [names, ahead "->"], formalParameters], "->",
    lambdaBody]

/-- The start of an operand that may stand behind a cast to any type. -/
def castOperandStart : Rule :=
  ahead (choice [nameExcept ["instanceof"], literal .number, literal .character, literal .string,
    literal .opening, "(", "!", "~"])

/-- A cast in front of an operand. -/
def cast (operand : Rule) : Rule :=
  orElse
    (all ["(", node .type (all [annotations, oneOf basicTypes, optional brackets]), ")", operand])
    (all [parens (separated "&" (node .type (all [annotations, plainType operandWords,
      optional brackets]))), castOperandStart, operand])

/-- Operators in front of an operand. -/
def leadingOperator : Rule :=
  oneOf ["++", "--", "+", "-", "!", "~"]

/-- One case label, behind its keyword. -/
def caseLabels : Rule :=
  let guard := all ["when", Phrase.caseExpression]
  let ending := ahead (oneOf ["when", ":", "->"])
  orElse
    (all ["case", orElse (all [Phrase.pattern, ending])
      (separated "," Phrase.caseExpression), optional guard])
    "default"

/-- A case with an arrow. -/
def switchRule : Rule :=
  all [caseLabels, "->", choice [
    Phrase.block,
    all ["throw", Phrase.expression, semicolon],
    all [Phrase.expression, semicolon]]]

/-- Cases with colons, and the statements behind them. -/
def switchGroup : Rule :=
  all [many1 (all [caseLabels, ":"]), many Phrase.statement]

/-- A choice between cases. -/
def switchExpression : Rule :=
  all ["switch", Phrase.parenthesized, choice [
    all ["\x7b", many switchRule, "\x7d"],
    all ["\x7b", many switchGroup, "\x7d"],
    all [ahead "\x7b", fault,
      itemsInBraces (choice [switchRule, all [caseLabels, ":"], Phrase.statement])]]]

/-- An operand: operators, a cast, a lambda, a switch, or something with suffixes. -/
def operandOf (operand primary : Rule) (lambdas : Rule) : Rule :=
  choice [
    all [leadingOperator, operand],
    lambdas,
    cast operand,
    switchExpression,
    all [primary, many (oneOf ["++", "--"])]]

/-- A type where only its class or one of its methods may follow. -/
def typeOperand : Rule :=
  all [typeExcept operandWords, ahead (orElse (all [".", "class"]) "::")]

/-- Values of array dimensions, then empty brackets. -/
def arrayDimensions : Rule :=
  all [many1 (all [annotations, "[", Phrase.expression, "]"]), optional brackets]

/-- The construction of an object, behind anything that holds it. -/
def creation : Rule :=
  all ["new", annotations, optional (all [Phrase.typeArguments, annotations]),
    label .type (plainType []), Phrase.arguments, optional Phrase.classBody]

def arrayCreation : Rule :=
  all ["new", annotations, plainType [],
    orElse arrayDimensions (all [brackets, Phrase.arrayInitializer])]

/-- A string, perhaps with expressions in it. -/
def stringLiteral : Rule :=
  orElse (literal .string)
    (node .literal (all [literal .opening, Phrase.expression,
      many (all [literal .middle, Phrase.expression]), literal .closing]))

def arguments : Rule :=
  parens (commas Phrase.expression)

/-- What may stand on its own as an operand. -/
def primary : Rule :=
  choice [
    stringLiteral,
    literal .number,
    literal .character,
    node .literal (oneOf ["true", "false", "null"]),
    "this",
    all ["super", ahead (orElse "." "::")],
    Phrase.parenthesized,
    node .objectCreation creation,
    node .expression arrayCreation,
    typeOperand,
    node .methodInvocation (all [label .name (nameExcept operandWords), Phrase.arguments]),
    nameExcept operandWords]

/-- What may stand behind an operand and takes it in. -/
def suffixes : List Suffix :=
  [.mk [] .methodInvocation (some .object)
      (all [".", optional (all ["super", "."]), optional Phrase.typeArguments,
        label .name (nameExcept dotWords), Phrase.arguments]),
    .mk [] .objectCreation none (all [".", creation]),
    .mk [.identifier, .fieldAccess, .type] .expression none (all [".", "class"]),
    .mk [] .fieldAccess none
      (all [".", optional (all ["super", "."]), orElse (nameExcept dotWords) "this"]),
    .mk [] .expression none (all [".", stringLiteral]),
    .mk [] .arrayAccess none (all ["[", Phrase.expression, "]"]),
    .mk [] .expression none
      (all ["::", optional Phrase.typeArguments, orElse "new" anyName]),
    .mk [.identifier, .fieldAccess, .arrayAccess] .expression none
      (all [assignmentOperator, Phrase.expression])]

/-- An operand with its suffixes. -/
def primaryWithSuffixes : Rule :=
  grow primary suffixes

/-- What a value may be matched against. -/
def pattern : Rule :=
  let record := all [plainType [], parens (commas (orElse Phrase.pattern
    (all [type, anyName])))]
  orElse record (all [type, nameExcept ["when"]])

/-! ### Statements -/

/-- Statements in braces. -/
def blockItems : Rule :=
  itemsInBraces Phrase.statement

/-- A declaration of local variables without its semicolon. -/
def localVariables : Rule :=
  all [optional modifiers, typeExcept statementWords, declarators ["instanceof"]]

/-- The header of a loop over values or with a counter. -/
def forHeader : Rule :=
  let each := all [optional modifiers, type, variableName [], ":", Phrase.expression]
  let start := orElse (all [localVariables, ";"]) (all [commas Phrase.expression, ";"])
  parens (orElse each
    (all [start, optional Phrase.expression, ";", commas Phrase.expression]))

def resource : Rule :=
  orElse
    (all [optional modifiers, type, variableName [], "=", Phrase.expression])
    Phrase.operand

/-- A handler of a `try`. -/
def catchClause : Rule :=
  all ["catch", parens (all [optional modifiers, separated "|" type, variableName []]),
    Phrase.block]

/-- The last part of a `try`. -/
def finallyClause : Rule :=
  all ["finally", Phrase.block]

/-- A `try` with what must follow it. -/
def tryStatement : Rule :=
  let resources := parens (all [separated ";" resource, optional ";"])
  all ["try", orElse
    (all [resources, Phrase.block, many catchClause, optional finallyClause])
    (all [Phrase.block, choice [
      all [many1 catchClause, optional finallyClause],
      finallyClause,
      fault]])]

/-- Statements that start with a keyword. -/
def keywordStatement : Rule :=
  choice [
    all ["if", Phrase.parenthesized, Phrase.statement,
      optional (all ["else", Phrase.statement])],
    all ["while", Phrase.parenthesized, Phrase.statement],
    all ["for", forHeader, Phrase.statement],
    all ["do", Phrase.statement, "while", Phrase.parenthesized, semicolon],
    tryStatement,
    switchExpression,
    all ["synchronized", Phrase.parenthesized, Phrase.block],
    all ["return", optional Phrase.expression, semicolon],
    all ["throw", Phrase.expression, semicolon],
    all [oneOf ["break", "continue"], optional anyName, semicolon],
    all ["assert", Phrase.expression, optional (all [":", Phrase.expression]), semicolon],
    all ["yield", Phrase.expression, ";"]]

def statement : Rule :=
  choice [
    Phrase.block,
    ";",
    keywordStatement,
    Phrase.declaration,
    all [nameExcept statementWords, ":", Phrase.statement],
    all [localVariables, semicolon],
    all [notAhead (oneOf statementStarts), Phrase.expression, semicolon]]

/-! ### Declarations -/

/-- A class or interface body that is expected here. Other tokens in front of it are errors, unless
they could start something else. -/
def expectedBody (body : Rule) : Rule :=
  let stray := all [notAhead (oneOf ["\x7b", "\x7d", ";", "class", "interface", "enum"]), skip]
  all [many stray, label .body body]

def classDeclaration : Rule :=
  node .classDeclaration (all [optional modifiers, "class", label .name anyName,
    optional typeParameters,
    optional (label .superclass (node .superclass (all ["extends", annotatedType]))),
    optional (label .interfaces (node .superInterfaces (all ["implements", typeList]))),
    optional (all ["permits", typeList]),
    expectedBody Phrase.classBody])

def interfaceDeclaration : Rule :=
  node .interfaceDeclaration (all [optional modifiers, "interface", label .name anyName,
    optional typeParameters,
    optional (node .extendsInterfaces (all ["extends", typeList])),
    optional (all ["permits", typeList]),
    expectedBody (node .classBody
      (itemsInBraces (orElse Phrase.interfaceMember (all [fault, Phrase.block]))))])

def enumConstant : Rule :=
  node .enumConstant (all [optional modifiers, label .name (nameExcept modifierWords),
    optional Phrase.arguments, optional Phrase.classBody])

/-- The members of an enum behind its constants. -/
def enumMembers : Rule :=
  node .enumMembers
    (all [";", many (choice [Phrase.member, all [notAhead "\x7d", skip]])])

def enumBody : Rule :=
  node .enumBody (orElse
    (all ["\x7b", commas enumConstant, optional ",", optional enumMembers, closeBrace])
    (all [ahead "\x7b", fault, itemsInBraces Phrase.member]))

def enumDeclaration : Rule :=
  node .enumDeclaration (all [optional modifiers, "enum", label .name anyName,
    optional (label .interfaces (node .superInterfaces (all ["implements", typeList]))),
    expectedBody enumBody])

/-- A record. Its members are listed like those of a class, but it is no class itself. -/
def recordDeclaration : Rule :=
  all [optional modifiers, "record", anyName, optional typeParameters, formalParameters,
    optional (all ["implements", typeList]), expectedBody Phrase.classBody]

def annotationTypeDeclaration : Rule :=
  all [optional modifiers, "@", glued "interface", anyName,
    expectedBody (itemsInBraces (orElse Phrase.annotationMember (all [fault, Phrase.block])))]

/-- A declaration that may stand among statements and among members. -/
def typeDeclaration : Rule :=
  choice [classDeclaration, interfaceDeclaration, enumDeclaration, annotationTypeDeclaration,
    recordDeclaration]

def packageDeclaration : Rule :=
  all [annotations, "package", qualifiedName, semicolon]

/-- A name that a source uses without its package. -/
def importDeclaration : Rule :=
  all ["import", optional "static", qualifiedName, optional (all [".", "*"]), semicolon]

def moduleDeclaration : Rule :=
  let names := separated "," qualifiedName
  let directive := choice [
    all ["requires", many (oneOf ["transitive", "static"]), qualifiedName],
    all [oneOf ["exports", "opens"], qualifiedName, optional (all ["to", names])],
    all ["uses", qualifiedName],
    all ["provides", qualifiedName, "with", names]]
  all [annotations, optional "open", "module", qualifiedName,
    itemsInBraces (all [directive, semicolon])]

/-- A declaration that may stand among statements. -/
def declaration : Rule :=
  choice [typeDeclaration, packageDeclaration, importDeclaration, moduleDeclaration]

def throwsClause : Rule :=
  all ["throws", separated "," annotatedType]

def methodDeclaration : Rule :=
  node .methodDeclaration (all [optional modifiers, optional (all [typeParameters, annotations]),
    label .type (typeExcept memberWords), label .name anyName,
    label .parameters formalParameters, optional brackets, optional throwsClause,
    orElse ";" (label .body Phrase.block)])

/-- The call of another constructor that may start a constructor's body. -/
def constructorCall : Rule :=
  all [
    orElse
      (all [optional Phrase.typeArguments, oneOf ["this", "super"]])
      (all [primaryWithSuffixes, ".", optional Phrase.typeArguments, "super"]),
    Phrase.arguments, ";"]

def constructorBody : Rule :=
  node .block (all ["\x7b", optional constructorCall,
    many (orElse Phrase.statement (all [notAhead "\x7d", skip])), closeBrace])

/-- A constructor, under any name. -/
def constructorDeclaration : Rule :=
  node .constructorDeclaration (all [optional modifiers, optional typeParameters,
    label .name (nameExcept memberWords), label .parameters formalParameters,
    optional throwsClause, label .body constructorBody])

/-- A record's constructor without parameters of its own. -/
def compactConstructor : Rule :=
  all [optional modifiers, nameExcept memberWords, Phrase.block]

/-- Fields, in a class or in an interface. -/
def fieldDeclaration : Rule :=
  node .fieldDeclaration (all [optional modifiers, label .type (typeExcept memberWords),
    declarators [], semicolon])

def member : Rule :=
  choice [
    ";",
    Phrase.block,
    all ["static", Phrase.block],
    typeDeclaration,
    methodDeclaration,
    constructorDeclaration,
    compactConstructor,
    fieldDeclaration]

def interfaceMember : Rule :=
  choice [";", typeDeclaration, methodDeclaration, fieldDeclaration]

def annotationMember : Rule :=
  let element := all [optional modifiers, typeExcept memberWords, anyName, "(", ")",
    optional brackets, optional (all ["default", Phrase.elementValue]), ";"]
  choice [";", typeDeclaration, element, fieldDeclaration]

def program : Rule :=
  many (choice [Phrase.declaration, methodDeclaration, Phrase.statement, skip])

def rules : Phrase → Rule
  | .typeArguments => typeArguments
  | .annotationUse => annotationUse
  | .elementValue => elementValue
  | .expression => expressionOf Phrase.operand .expression
  | .operand => operandOf Phrase.operand primaryWithSuffixes lambda
  | .caseExpression => expressionOf Phrase.caseOperand .caseExpression
  | .caseOperand => operandOf Phrase.caseOperand primaryWithSuffixes (choice [])
  | .parenthesized => node .expression (parens Phrase.expression)
  | .arguments => arguments
  | .arrayInitializer => arrayInitializer
  | .pattern => pattern
  | .block => node .block blockItems
  | .statement => statement
  | .classBody => node .classBody (itemsInBraces Phrase.member)
  | .member => member
  | .interfaceMember => interfaceMember
  | .annotationMember => annotationMember
  | .declaration => declaration

/-- The syntax tree of a source text. -/
def parse (cs : List Char) : Node :=
  program.parse rules cs

end JavaDiagram.Java.Grammar
