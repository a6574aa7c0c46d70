import ApiEvolution.TypeText.Braces
import ApiEvolution.TypeText.Range

/-!
# From type texts to types

`readType` makes a type out of the informal text that documents a parameter, for instance `str or
None, default='auto'`, and of the description next to it, which may give a range of numbers. It has
no failure: what it cannot make sense of becomes a name or nothing.

`resolve` chooses between the documented type text and the declared type hint.
-/

namespace ApiEvolution.TypeText

/-- Whether the word "default" is at the front of a text. -/
def startsDefault (text : List Char) : Bool :=
  match dropWord? "default".toList text with
  | none => false
  | some [] => true
  | some (c :: _) => !Text.isWord c

/-- What is before the first clause about the default: a comma or a blank, blanks, and the word. -/
def beforeDefault : List Char → List Char
  | [] => []
  | c :: rest =>
    if (c = ',' || Text.isBlank c) && startsDefault (skipBlanks rest) then []
    else c :: beforeDefault rest

/-- A text without the clause about the default, which may be all of it. -/
def dropDefault (text : List Char) : List Char :=
  if startsDefault (skipBlanks text) then [] else beforeDefault text

/-- Whether a segment is a word, the case of letters set aside. -/
def isKeyword (word : String) (segment : List Char) : Bool :=
  segment.map Char.toLower = word.toList

/-- The base of the ranges in a type text that do not name their own: `int` if that is a segment and
`float` is none. -/
def declaredBase (segments : List (List Char)) : NumberBase :=
  if segments.any (isKeyword "int") && !segments.any (isKeyword "float") then .int else .float

/-- The enumeration of a value set, if it has a value. -/
def enumerationOf (values : Option (List String)) : List ValueType :=
  match values with
  | some (v :: vs) => [.enumeration (v :: vs)]
  | _ => []

/-- The members that a segment contributes: none for the word "optional"; a range; the value set of
a segment that starts with a brace; and in all other cases a name. -/
def segmentTypes (base : NumberBase) (segment : List Char) : List ValueType :=
  if isKeyword "optional" segment then []
  else
    match rangeOf base segment with
    | some b => [.boundary b]
    | none =>
      if segment.head? = some '{' then enumerationOf (valueSet? segment)
      else [.named (String.ofList segment)]

/-- The members of the type, in the order in which they are found: the first value set, the range in
the description, and those of the segments of what is left of the text. -/
def memberTypes (text description : List Char) : List ValueType :=
  let text := dropDefault text
  let span := firstSpan text
  let values := enumerationOf (span.bind fun s => valueSet? s.inside)
  let left := segments (match span with
    | some s => s.before ++ s.after
    | none => text)
  let base := declaredBase left
  let range := match rangeIn base description with
    | some b => [.boundary b]
    | none => []
  values ++ range ++ left.flatMap (segmentTypes base)

/-- The type that a type text and a description give, if they give one. -/
def readType (typeText description : String) : Option ValueType :=
  let text := Text.collapse (Text.trim typeText.toList)
  if text.isEmpty then none else ValueType.union? (memberTypes text description.toList)

/-- Whether a text has nothing but blanks. -/
def isBlankText (text : String) : Bool :=
  text.toList.all Text.isBlank

/-- The type of an element: from the documented type text if it gives one, else from the type hint.
-/
def resolve (typeText : String) (typeHint : Option String) (description : String) :
    Option ValueType :=
  (if isBlankText typeText then none else readType typeText description).or
    (typeHint.bind fun hint => if isBlankText hint then none else readType hint description)

end ApiEvolution.TypeText
