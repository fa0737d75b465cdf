namespace ResourceQuery.DateTime.Literal

-- A reader takes a beginning off a text and gives the rest, or fails.
abbrev Reader := List Char → Option (List Char)

def char (expected : Char) : Reader
  | [] => none
  | c :: cs => if c = expected then some cs else none

-- Exactly `count` ASCII digits.
def digits : Nat → Reader
  | 0, cs => some cs
  | _ + 1, [] => none
  | count + 1, c :: cs => if c.isDigit then digits count cs else none

-- As many ASCII digits as there are, but at most `limit`.
def upToDigits : Nat → List Char → List Char
  | 0, cs => cs
  | _ + 1, [] => []
  | limit + 1, c :: cs => if c.isDigit then upToDigits limit cs else c :: cs

-- What `reader` leaves, or the whole text if it fails.
def optionally (reader : Reader) (cs : List Char) : List Char :=
  (reader cs).getD cs

-- A point and one to seven digits.
def fraction (cs : List Char) : Option (List Char) := do
  let cs ← char '.' cs
  let cs ← digits 1 cs
  upToDigits 6 cs

-- A colon, the seconds and an optional fraction.
def seconds (cs : List Char) : Option (List Char) := do
  let cs ← char ':' cs
  let cs ← digits 2 cs
  optionally fraction cs

def dateAndMinute (cs : List Char) : Option (List Char) := do
  let cs ← digits 4 cs
  let cs ← char '-' cs
  let cs ← digits 2 cs
  let cs ← char '-' cs
  let cs ← digits 2 cs
  let cs ← char 'T' cs
  let cs ← digits 2 cs
  let cs ← char ':' cs
  digits 2 cs

def literal (cs : List Char) : Option (List Char) := do
  let cs ← dateAndMinute cs
  optionally (char 'Z') (optionally seconds cs)

end Literal

-- Whether the whole text is a date-time literal.
def isLiteral (text : String) : Bool :=
  Literal.literal text.toList == some []

end ResourceQuery.DateTime
