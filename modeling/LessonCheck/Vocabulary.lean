/-!
The words that mean something by themselves: the keywords, the literal words, the names on the path
to standard output, and the methods that a string has.
-/

namespace LessonCheck.Vocabulary

def keywords : List String :=
  ["abstract", "boolean", "break", "byte", "case", "catch", "char", "class", "const", "continue",
   "default", "do", "double", "else", "enum", "extends", "final", "finally", "float", "for", "if",
   "implements", "import", "instanceof", "int", "interface", "long", "new", "package", "private",
   "protected", "public", "return", "short", "static", "String", "super", "switch", "this", "throw",
   "throws", "try", "void", "while"]

/-- Words that read as identifiers and stand for a value. -/
def literalWords : List String := ["true", "false", "null"]

/-- The names on the path to standard output. -/
def outputNames : List String := ["System", "out", "print", "println"]

/-- The methods of a string, in the order in which they are listed to a user. -/
def stringMethods : List String :=
  ["length", "charAt", "substring", "indexOf", "lastIndexOf", "equals", "equalsIgnoreCase",
   "compareTo", "compareToIgnoreCase", "startsWith", "endsWith", "contains", "toUpperCase",
   "toLowerCase", "trim", "replace", "replaceAll", "split", "valueOf", "toString"]

def isKeyword (word : String) : Bool := keywords.contains word

/-- Identifiers that need no declaration. -/
def isReserved (word : String) : Bool :=
  literalWords.contains word || outputNames.contains word

def isPrintMethod (word : String) : Bool :=
  word == "println" || word == "print"

def isStringMethod (word : String) : Bool := stringMethods.contains word

end LessonCheck.Vocabulary
