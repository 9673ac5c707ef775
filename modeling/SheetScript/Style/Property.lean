import SheetScript.Assoc
import SheetScript.Text.Lowercase

/-! The names of style properties: setters, identifiers in a bag, and names in a style sheet. -/

namespace SheetScript.Style

def setters : Assoc String :=
  [
   ("bg", "background"), ("bgColor", "backgroundColor"), ("bgImage", "backgroundImage"),
   ("bgRepeat", "backgroundRepeat"), ("bgAttachment", "backgroundAttachment"),
   ("bgPosition", "backgroundPosition"), ("backgroundClip", "backgroundClip"),
   ("border", "border"), ("borderStyle", "borderStyle"), ("borderWidth", "borderWidth"),
   ("borderColor", "borderColor"), ("borderRadius", "borderRadius"), ("margin", "margin"),
   ("marginTop", "marginTop"), ("marginRight", "marginRight"), ("marginBottom", "marginBottom"),
   ("marginLeft", "marginLeft"), ("padding", "padding"), ("paddingTop", "paddingTop"),
   ("paddingRight", "paddingRight"), ("paddingBottom", "paddingBottom"),
   ("paddingLeft", "paddingLeft"), ("width", "width"), ("minWidth", "minWidth"),
   ("maxWidth", "maxWidth"), ("height", "height"), ("minHeight", "minHeight"),
   ("maxHeight", "maxHeight"), ("outline", "outline"), ("outlineColor", "outlineColor"),
   ("outlineStyle", "outlineStyle"), ("outlineWidth", "outlineWidth"),
   ("outlineOffset", "outlineOffset"), ("color", "color"), ("direction", "direction"),
   ("unicodeBidi", "unicodeBidi"), ("verticalAlign", "verticalAlign"),
   ("textTransform", "textTransform"), ("textShadow", "textShadow"), ("textAlign", "textAlign"),
   ("textAlignLast", "textAlignLast"), ("textIndent", "textIndent"),
   ("letterSpacing", "letterSpacing"), ("lineHeight", "lineHeight"),
   ("wordSpacing", "wordSpacing"), ("whiteSpace", "whiteSpace"),
   ("textFillColor", "textFillColor"), ("font", "font"), ("fontFamily", "fontFamily"),
   ("fontStyle", "fontStyle"), ("fontWeight", "fontWeight"), ("fontVariant", "fontVariant"),
   ("fontSize", "fontSize"), ("listStyle", "listStyle"), ("listStyleType", "listStyleType"),
   ("listStyleImage", "listStyleImage"), ("listStylePosition", "listStylePosition"),
   ("display", "display"), ("flex", "flex"), ("alignContent", "alignContent"),
   ("alignSelf", "alignSelf"), ("alignItems", "alignItems"),
   ("justifyContent", "justifyContent"), ("flexWrap", "flexWrap"), ("flexGrow", "flexGrow"),
   ("flexDirection", "flexDirection"), ("order", "order"), ("visibility", "visibility"),
   ("gap", "gap"), ("gridTemplateColumns", "gridTemplateColumns"), ("position", "position"),
   ("top", "top"), ("right", "right"), ("bottom", "bottom"), ("left", "left"),
   ("zIndex", "zIndex"), ("float", "float"), ("clear", "clear"), ("overflow", "overflow"),
   ("overflowX", "overflowX"), ("overflowY", "overflowY"), ("overflowWrap", "overflowWrap"),
   ("transform", "transform"), ("boxShadow", "boxShadow"), ("backdropFilter", "backdropFilter"),
   ("boxSizing", "boxSizing"), ("opacity", "opacity"), ("transition", "transition"),
   ("cursor", "cursor"), ("content", "content"), ("accentColor", "accentColor"), ("all", "all")]

def setterProperty? (name : String) : Option String :=
  setters.get? name

def isSmall (c : Char) : Bool :=
  'a' ≤ c && c ≤ 'z'

def isCapital (c : Char) : Bool :=
  'A' ≤ c && c ≤ 'Z'

/-- Joins words at underscores: an underscore before a small letter makes it a capital. -/
def joinWords : List Char → List Char
  | '_' :: c :: rest =>
    if isSmall c then c.toUpper :: joinWords rest else '_' :: joinWords (c :: rest)
  | c :: rest => c :: joinWords rest
  | [] => []

/-- The identifier of a setter in either spelling, `fontSize` or `font_size`. -/
def anySetterProperty? (name : String) : Option String :=
  (setterProperty? name).or (setterProperty? (String.ofList (joinWords name.toList)))

def hyphenate : List Char → List Char
  | a :: b :: rest =>
    if isSmall a && isCapital b then a :: '-' :: hyphenate (b :: rest) else a :: hyphenate (b :: rest)
  | text => text

/-- The name of a property in a style sheet: `backgroundColor` is `background-color`. -/
def propertyName (identifier : String) : String :=
  Text.lowercase (String.ofList (hyphenate identifier.toList))

end SheetScript.Style
