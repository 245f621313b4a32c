/-!
# White space

The characters with Unicode's `White_Space` property, and texts without those at
their ends.
-/

set_option autoImplicit false

namespace ShaderCache.Text

/-- Tab to carriage return, space, next line, no-break space, ogham space, the typographic
spaces, line and paragraph separator, narrow and mathematical space, ideographic space. -/
def isBlank (c : Char) : Bool :=
  let code := c.toNat
  (0x9 ≤ code && code ≤ 0xD) || code = 0x20 || code = 0x85 || code = 0xA0 || code = 0x1680 ||
    (0x2000 ≤ code && code ≤ 0x200A) || code = 0x2028 || code = 0x2029 || code = 0x202F ||
    code = 0x205F || code = 0x3000

def trimBlanks (chars : List Char) : List Char :=
  ((chars.dropWhile isBlank).reverse.dropWhile isBlank).reverse

def trim (text : String) : String :=
  String.ofList (trimBlanks text.toList)

def allBlank (text : String) : Bool :=
  text.toList.all isBlank

end ShaderCache.Text
