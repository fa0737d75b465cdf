namespace ResourceQuery.Quoted

-- There are no escapes. The single quote is used whenever it can be.
def quote? (text : String) : Option String :=
  if !text.toList.contains '\'' then some ("'" ++ text ++ "'")
  else if !text.toList.contains '"' then some ("\"" ++ text ++ "\"")
  else none

end ResourceQuery.Quoted
