/-!
# Texts put together
-/

set_option autoImplicit false

namespace ShaderCache.Text

def joinWith (separator : String) : List String → String
  | [] => ""
  | [item] => item
  | item :: rest => item ++ separator ++ joinWith separator rest

/-- An absent text stays absent. -/
def appendIfSome (text : Option String) (suffix : String) : Option String :=
  text.map (· ++ suffix)

end ShaderCache.Text
