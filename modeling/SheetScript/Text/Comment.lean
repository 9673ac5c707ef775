/-! Comments between `/*` and `*/`. -/

namespace SheetScript.Text

def commentBody? : List Char → Option (List Char × List Char)
  | '*' :: '/' :: rest => some (['*', '/'], rest)
  | c :: rest => (commentBody? rest).map fun (body, after) => (c :: body, after)
  | [] => none

theorem eq_append_of_commentBody? {text body after : List Char}
    (found : commentBody? text = some (body, after)) : text = body ++ after := by
  fun_induction commentBody? text generalizing body <;>
    grind [Option.map_eq_some_iff]

end SheetScript.Text
