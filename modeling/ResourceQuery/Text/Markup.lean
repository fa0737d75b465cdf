namespace ResourceQuery.Markup

def entity? : Char → Option (List Char)
  | '&'  => some ['&', 'a', 'm', 'p', ';']
  | '<'  => some ['&', 'l', 't', ';']
  | '>'  => some ['&', 'g', 't', ';']
  | '"'  => some ['&', 'q', 'u', 'o', 't', ';']
  | '\'' => some ['&', 'a', 'p', 'o', 's', ';']
  | _    => none

def escapeChar (c : Char) : List Char :=
  (entity? c).getD [c]

def escape (text : String) : String :=
  String.ofList (text.toList.flatMap escapeChar)

end ResourceQuery.Markup
