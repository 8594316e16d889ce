/-!
# Words for a shell

`shellWord` writes a text so that a POSIX shell reads it as one word: harmless texts stay as they are, others are put
between single quotes.
-/

set_option autoImplicit false

namespace CloudFleet.Remote

/-- Whether a character needs no quoting. -/
def isPlain (c : Char) : Bool :=
  c.isAlphanum || c == '-' || c == '_' || c == '=' || c == '/' || c == ',' || c == '.' || c == '+'

/-- A character between single quotes; a quote or an exclamation mark leaves the quotes and comes back. -/
def quoteChar (c : Char) : List Char :=
  if c = '\'' ∨ c = '!' then ['\'', '\\', c, '\''] else [c]

/-- A text as one word of a command line. -/
def shellWord (s : String) : String :=
  if !s.isEmpty && s.toList.all isPlain then s
  else .ofList ('\'' :: s.toList.flatMap quoteChar ++ ['\''])

end CloudFleet.Remote
