import ResourceQuery.Text.Markup
import ResourceQuery.Filter.Render

namespace ResourceQuery.Envelope

def enumerationNamespace : String := "http://schemas.xmlsoap.org/ws/2004/09/enumeration"

def filterDialect : String := "http://schemas.microsoft.com/2006/11/XPathFilterDialect"

def opening : String :=
  "<Filter xmlns=\"" ++ enumerationNamespace ++ "\" Dialect=\"" ++ filterDialect ++ "\">"

def closing : String := "</Filter>"

def wrap (text : String) : String :=
  opening ++ Markup.escape text ++ closing

end ResourceQuery.Envelope

namespace ResourceQuery.Query

def envelope (q : Query) : String :=
  Envelope.wrap q.render

end ResourceQuery.Query
