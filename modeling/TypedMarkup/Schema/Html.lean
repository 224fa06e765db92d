import TypedMarkup.Schema.Registry

/-!
Contract: the element declarations that are always at hand, a subset of HTML.

Owns: the declarations by subject, and `Registry.html`, the registry of them all.
-/

namespace TypedMarkup

namespace Html

def plain (name : String) : TypeSpec := .mk name []

def setOf (item : String) : TypeSpec := .mk "SpacedSet" [.mk item []]

def listOf (item : String) : TypeSpec := .mk "SpacedList" [.mk item []]

def declare (name : String) (attributes : List (String × TypeSpec)) (categories : List String)
    (required : List String) (constraint : Option String) : Declaration :=
  { name := name
    attributes := attributes.map fun pair => ⟨pair.1, pair.2, .origin⟩
    categories := categories
    required := required.map fun child => (child, .origin)
    constraint := constraint.map fun content => (content, .origin)
    span := .origin
    source := "" }

def structureElements : List Declaration := [
  declare "html" [("xmlns", plain "Uri")] [] ["head", "body"] none,
  declare "head" [] [] ["title"] (some "MetadataContent"),
  declare "body" [] [] [] (some "FlowContent")]

def metadataElements : List Declaration := [
  declare "base" [("href", plain "Uri"), ("target", plain "Target")] ["MetadataContent"] [] none,
  declare "link" [("as", plain "String"), ("crossorigin", plain "CrossOrigin"),
      ("href", plain "Uri"), ("hreflang", plain "LanguageTag"), ("media", plain "String"),
      ("rel", setOf "LinkType"), ("sizes", plain "String"), ("title", plain "String"),
      ("type", plain "Mime"), ("integrity", plain "Integrity")] ["MetadataContent"] [] none,
  declare "meta" [("charset", plain "CharacterEncoding"), ("content", plain "String"),
      ("http_equiv", plain "HTTPEquiv"), ("name", plain "Metadata")] ["MetadataContent"] [] none,
  declare "style" [("type", plain "Mime"), ("media", plain "String"), ("nonce", plain "Nonce"),
      ("title", plain "String")] ["MetadataContent"] [] (some "TextNode"),
  declare "title" [] ["MetadataContent"] [] (some "TextNode"),
  declare "script" [("async", plain "Bool"), ("crossorigin", plain "CrossOrigin"),
      ("defer", plain "Bool"), ("integrity", plain "Integrity"), ("nomodule", plain "Bool"),
      ("nonce", plain "Nonce"), ("src", plain "Uri"), ("text", plain "String"),
      ("type", plain "String")] ["MetadataContent", "FlowContent", "PhrasingContent"] []
      (some "TextNode"),
  declare "noscript" [] ["MetadataContent", "FlowContent", "PhrasingContent"] []
      (some "FlowContent")]

def sectionElements : List Declaration := [
  declare "address" [] ["FlowContent"] [] (some "FlowContent"),
  declare "article" [] ["FlowContent", "SectioningContent"] [] (some "FlowContent"),
  declare "aside" [] ["FlowContent", "SectioningContent"] [] (some "FlowContent"),
  declare "footer" [] ["FlowContent"] [] (some "FlowContent"),
  declare "header" [] ["FlowContent"] [] (some "FlowContent"),
  declare "main" [] ["FlowContent"] [] (some "FlowContent"),
  declare "nav" [] ["FlowContent", "SectioningContent"] [] (some "FlowContent"),
  declare "section" [] ["FlowContent", "SectioningContent"] [] (some "FlowContent"),
  declare "h1" [] ["FlowContent", "HeadingContent"] [] (some "PhrasingContent"),
  declare "h2" [] ["FlowContent", "HeadingContent"] [] (some "PhrasingContent"),
  declare "h3" [] ["FlowContent", "HeadingContent"] [] (some "PhrasingContent"),
  declare "h4" [] ["FlowContent", "HeadingContent"] [] (some "PhrasingContent"),
  declare "h5" [] ["FlowContent", "HeadingContent"] [] (some "PhrasingContent"),
  declare "h6" [] ["FlowContent", "HeadingContent"] [] (some "PhrasingContent")]

def groupingElements : List Declaration := [
  declare "blockquote" [("cite", plain "Uri")] ["FlowContent"] [] (some "FlowContent"),
  declare "div" [] ["FlowContent"] [] (some "FlowContent"),
  declare "dl" [] ["FlowContent"] [] (some "DescriptionListContent"),
  declare "dt" [] ["DescriptionListContent"] [] (some "FlowContent"),
  declare "dd" [] ["DescriptionListContent"] [] (some "FlowContent"),
  declare "figure" [] ["FlowContent"] [] (some "FlowContent"),
  declare "figcaption" [] ["FlowContent"] [] (some "FlowContent"),
  declare "hr" [] ["FlowContent"] [] none,
  declare "li" [("value", plain "isize")] ["ListContent"] [] (some "FlowContent"),
  declare "ol" [("reversed", plain "Bool"), ("start", plain "isize"),
      ("type", plain "OrderedListType")] ["FlowContent"] [] (some "li"),
  declare "ul" [] ["FlowContent"] [] (some "li"),
  declare "menu" [] ["FlowContent"] [] (some "li"),
  declare "p" [] ["FlowContent"] [] (some "PhrasingContent"),
  declare "pre" [] ["FlowContent"] [] (some "PhrasingContent")]

def textElements : List Declaration := [
  declare "a" [("download", plain "String"), ("href", plain "Uri"),
      ("hreflang", plain "LanguageTag"), ("ping", listOf "Uri"),
      ("referrerpolicy", plain "ReferrerPolicy"), ("rel", setOf "LinkType"),
      ("target", plain "Target"), ("type", plain "Mime")]
      ["FlowContent", "PhrasingContent", "InteractiveContent"] [] (some "FlowContent"),
  declare "abbr" [] ["FlowContent", "PhrasingContent"] [] (some "PhrasingContent"),
  declare "b" [] ["FlowContent", "PhrasingContent"] [] (some "PhrasingContent"),
  declare "br" [] ["FlowContent", "PhrasingContent"] [] none,
  declare "cite" [] ["FlowContent", "PhrasingContent"] [] (some "PhrasingContent"),
  declare "code" [] ["FlowContent", "PhrasingContent"] [] (some "PhrasingContent"),
  declare "data" [("value", plain "String")] ["FlowContent", "PhrasingContent"] []
      (some "PhrasingContent"),
  declare "em" [] ["FlowContent", "PhrasingContent"] [] (some "PhrasingContent"),
  declare "i" [] ["FlowContent", "PhrasingContent"] [] (some "PhrasingContent"),
  declare "kbd" [] ["FlowContent", "PhrasingContent"] [] (some "PhrasingContent"),
  declare "mark" [] ["FlowContent", "PhrasingContent"] [] (some "PhrasingContent"),
  declare "q" [("cite", plain "Uri")] ["FlowContent", "PhrasingContent"] []
      (some "PhrasingContent"),
  declare "s" [] ["FlowContent", "PhrasingContent"] [] (some "PhrasingContent"),
  declare "samp" [] ["FlowContent", "PhrasingContent"] [] (some "PhrasingContent"),
  declare "small" [] ["FlowContent", "PhrasingContent"] [] (some "PhrasingContent"),
  declare "span" [] ["FlowContent", "PhrasingContent"] [] (some "PhrasingContent"),
  declare "strong" [] ["FlowContent", "PhrasingContent"] [] (some "PhrasingContent"),
  declare "sub" [] ["FlowContent", "PhrasingContent"] [] (some "PhrasingContent"),
  declare "sup" [] ["FlowContent", "PhrasingContent"] [] (some "PhrasingContent"),
  declare "time" [("datetime", plain "Datetime")] ["FlowContent", "PhrasingContent"] []
      (some "PhrasingContent"),
  declare "u" [] ["FlowContent", "PhrasingContent"] [] (some "PhrasingContent"),
  declare "var" [] ["FlowContent", "PhrasingContent"] [] (some "PhrasingContent"),
  declare "wbr" [] ["FlowContent", "PhrasingContent"] [] none]

def embeddedElements : List Declaration := [
  declare "area" [("alt", plain "String"), ("coords", plain "String"),
      ("download", plain "String"), ("href", plain "Uri"), ("hreflang", plain "LanguageTag"),
      ("ping", listOf "Uri"), ("rel", setOf "LinkType"), ("shape", plain "AreaShape"),
      ("target", plain "Target")] ["FlowContent", "PhrasingContent", "MapContent"] [] none,
  declare "audio" [("autoplay", plain "Bool"), ("controls", plain "Bool"),
      ("crossorigin", plain "CrossOrigin"), ("loop", plain "Bool"), ("muted", plain "Bool"),
      ("preload", plain "Preload"), ("src", plain "Uri")]
      ["FlowContent", "PhrasingContent", "EmbeddedContent"] [] (some "MediaContent"),
  declare "embed" [("height", plain "usize"), ("src", plain "Uri"), ("type", plain "Mime"),
      ("width", plain "usize")] ["FlowContent", "PhrasingContent", "EmbeddedContent"] [] none,
  declare "iframe" [("allow", plain "FeaturePolicy"), ("allowfullscreen", plain "Bool"),
      ("height", plain "usize"), ("name", plain "Id"), ("referrerpolicy", plain "ReferrerPolicy"),
      ("sandbox", setOf "Sandbox"), ("src", plain "Uri"), ("srcdoc", plain "String"),
      ("width", plain "usize")]
      ["FlowContent", "PhrasingContent", "EmbeddedContent", "InteractiveContent"] []
      (some "FlowContent"),
  declare "img" [("alt", plain "String"), ("crossorigin", plain "CrossOrigin"),
      ("decoding", plain "ImageDecoding"), ("height", plain "usize"), ("ismap", plain "Bool"),
      ("sizes", listOf "String"), ("src", plain "Uri"), ("srcset", plain "String"),
      ("usemap", plain "String"), ("width", plain "usize")]
      ["FlowContent", "PhrasingContent", "EmbeddedContent"] [] none,
  declare "map" [("name", plain "Id")] ["FlowContent", "PhrasingContent"] [] (some "MapContent"),
  declare "object" [("data", plain "Uri"), ("form", plain "Id"), ("height", plain "usize"),
      ("name", plain "Id"), ("type", plain "Mime"), ("width", plain "usize")]
      ["FlowContent", "PhrasingContent", "EmbeddedContent"] [] (some "FlowContent"),
  declare "param" [("name", plain "String"), ("value", plain "String")] [] [] none,
  declare "picture" [] ["FlowContent", "PhrasingContent", "EmbeddedContent"] []
      (some "MediaContent"),
  declare "source" [("media", plain "String"), ("sizes", plain "String"), ("src", plain "Uri"),
      ("srcset", plain "String"), ("type", plain "Mime")] ["MediaContent"] [] none,
  declare "track" [("default", plain "Bool"), ("kind", plain "VideoKind"),
      ("label", plain "String"), ("src", plain "Uri"), ("srclang", plain "LanguageTag")]
      ["MediaContent"] [] none,
  declare "video" [("autoplay", plain "Bool"), ("controls", plain "Bool"),
      ("crossorigin", plain "CrossOrigin"), ("height", plain "usize"), ("loop", plain "Bool"),
      ("muted", plain "Bool"), ("preload", plain "Preload"), ("playsinline", plain "Bool"),
      ("poster", plain "Uri"), ("src", plain "Uri"), ("width", plain "usize")]
      ["FlowContent", "PhrasingContent", "EmbeddedContent"] [] (some "MediaContent"),
  declare "canvas" [("height", plain "usize"), ("width", plain "usize")]
      ["FlowContent", "PhrasingContent", "EmbeddedContent"] [] (some "FlowContent")]

def tableElements : List Declaration := [
  declare "table" [] ["FlowContent"] [] (some "TableContent"),
  declare "caption" [] ["TableContent"] [] (some "FlowContent"),
  declare "colgroup" [("span", plain "usize")] ["TableContent"] [] (some "col"),
  declare "col" [("span", plain "usize")] [] [] none,
  declare "tbody" [] ["TableContent"] [] (some "tr"),
  declare "thead" [] ["TableContent"] [] (some "tr"),
  declare "tfoot" [] ["TableContent"] [] (some "tr"),
  declare "tr" [] ["TableContent"] [] (some "TableColumnContent"),
  declare "td" [("colspan", plain "usize"), ("headers", setOf "Id"), ("rowspan", plain "usize")]
      ["TableColumnContent"] [] (some "FlowContent"),
  declare "th" [("abbr", plain "String"), ("colspan", plain "usize"), ("headers", setOf "Id"),
      ("rowspan", plain "usize"), ("scope", plain "TableHeaderScope")] ["TableColumnContent"] []
      (some "FlowContent")]

def formElements : List Declaration := [
  declare "button" [("autofocus", plain "Bool"), ("disabled", plain "Bool"), ("form", plain "Id"),
      ("formaction", plain "Uri"), ("formenctype", plain "FormEncodingType"),
      ("formmethod", plain "FormMethod"), ("formnovalidate", plain "Bool"),
      ("formtarget", plain "Target"), ("name", plain "Id"), ("type", plain "ButtonType"),
      ("value", plain "String")]
      ["FlowContent", "PhrasingContent", "InteractiveContent", "FormContent"] []
      (some "PhrasingContent"),
  declare "datalist" [] ["FlowContent", "PhrasingContent"] [] (some "option"),
  declare "fieldset" [("disabled", plain "Bool"), ("form", plain "Id"), ("name", plain "Id")]
      ["FlowContent", "FormContent"] [] (some "FlowContent"),
  declare "form" [("accept_charset", listOf "CharacterEncoding"), ("action", plain "Uri"),
      ("autocomplete", plain "OnOff"), ("enctype", plain "FormEncodingType"),
      ("method", plain "FormMethod"), ("name", plain "Id"), ("novalidate", plain "Bool"),
      ("target", plain "Target")] ["FlowContent"] [] (some "FlowContent"),
  declare "input" [("autocomplete", plain "String"), ("autofocus", plain "Bool"),
      ("checked", plain "Bool"), ("disabled", plain "Bool"), ("form", plain "Id"),
      ("list", plain "Id"), ("max", plain "String"), ("maxlength", plain "usize"),
      ("min", plain "String"), ("minlength", plain "usize"), ("multiple", plain "Bool"),
      ("name", plain "Id"), ("pattern", plain "String"), ("placeholder", plain "String"),
      ("readonly", plain "Bool"), ("required", plain "Bool"), ("size", plain "usize"),
      ("spellcheck", plain "Bool"), ("src", plain "Uri"), ("step", plain "String"),
      ("type", plain "InputType"), ("value", plain "String")]
      ["FlowContent", "PhrasingContent", "InteractiveContent", "FormContent"] [] none,
  declare "label" [("for", plain "Id"), ("form", plain "Id")]
      ["FlowContent", "PhrasingContent", "InteractiveContent", "FormContent"] []
      (some "PhrasingContent"),
  declare "legend" [] ["FlowContent"] [] (some "PhrasingContent"),
  declare "meter" [("value", plain "f64"), ("min", plain "f64"), ("max", plain "f64"),
      ("low", plain "f64"), ("high", plain "f64"), ("optimum", plain "f64"), ("form", plain "Id")]
      ["FlowContent", "PhrasingContent", "FormContent"] [] (some "PhrasingContent"),
  declare "optgroup" [("disabled", plain "Bool"), ("label", plain "String")] ["SelectContent"] []
      (some "option"),
  declare "option" [("disabled", plain "Bool"), ("label", plain "String"),
      ("selected", plain "Bool"), ("value", plain "String")] ["SelectContent"] []
      (some "TextNode"),
  declare "output" [("for", setOf "Id"), ("form", plain "Id"), ("name", plain "Id")]
      ["FlowContent", "PhrasingContent", "FormContent"] [] (some "PhrasingContent"),
  declare "progress" [("max", plain "f64"), ("value", plain "f64")]
      ["FlowContent", "PhrasingContent"] [] (some "PhrasingContent"),
  declare "select" [("autocomplete", plain "String"), ("autofocus", plain "Bool"),
      ("disabled", plain "Bool"), ("form", plain "Id"), ("multiple", plain "Bool"),
      ("name", plain "Id"), ("required", plain "Bool"), ("size", plain "usize")]
      ["FlowContent", "PhrasingContent", "InteractiveContent", "FormContent"] []
      (some "SelectContent"),
  declare "textarea" [("autocomplete", plain "OnOff"), ("autofocus", plain "Bool"),
      ("cols", plain "usize"), ("disabled", plain "Bool"), ("form", plain "Id"),
      ("maxlength", plain "usize"), ("minlength", plain "usize"), ("name", plain "Id"),
      ("placeholder", plain "String"), ("readonly", plain "Bool"), ("required", plain "Bool"),
      ("rows", plain "usize"), ("spellcheck", plain "BoolOrDefault"), ("wrap", plain "Wrap")]
      ["FlowContent", "PhrasingContent", "InteractiveContent", "FormContent"] [] (some "TextNode")]

def interactiveElements : List Declaration := [
  declare "details" [("open", plain "Bool")]
      ["FlowContent", "SectioningContent", "InteractiveContent"] ["summary"] (some "FlowContent"),
  declare "summary" [] [] [] (some "PhrasingContent"),
  declare "dialog" [("open", plain "Bool")] ["FlowContent"] [] (some "FlowContent")]

def declarations : List Declaration :=
  structureElements ++
    metadataElements ++
    sectionElements ++
    groupingElements ++
    textElements ++
    embeddedElements ++
    tableElements ++
    formElements ++
    interactiveElements

end Html

def Registry.html : Registry :=
  match Registry.ofDeclarations Html.declarations with
  | .ok registry => registry
  | .error _ => .empty

end TypedMarkup
