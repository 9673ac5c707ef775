/-! Finding a text inside another. -/

namespace SheetScript.Text

def occursIn (part : List Char) : List Char → Bool
  | [] => part.isEmpty
  | c :: rest => part.isPrefixOf (c :: rest) || occursIn part rest

end SheetScript.Text
