/-!
Contract: the closed vocabularies that attribute values are taken from.

Owns: `Vocabulary`, `Member` and the list of all vocabularies in their fixed order.
-/

namespace TypedMarkup

/-- A closed list of words. Each has a name, used in expressions, and a text, used in markup. -/
structure Vocabulary where
  name : String
  entries : List (String × String)
deriving DecidableEq, Repr

structure Member where
  vocabulary : String
  name : String
  text : String
deriving DecidableEq, Repr

namespace Vocabulary

def members (vocabulary : Vocabulary) : List Member :=
  vocabulary.entries.map fun entry => ⟨vocabulary.name, entry.1, entry.2⟩

def ofText? (vocabulary : Vocabulary) (text : String) : Option Member :=
  vocabulary.members.find? fun member => member.text == text

def ofName? (vocabulary : Vocabulary) (name : String) : Option Member :=
  vocabulary.members.find? fun member => member.name == name

def areaShape : Vocabulary := ⟨"AreaShape", [
  ("Rectangle", "rect"), ("Circle", "circle"), ("Polygon", "poly"), ("Default", "default")]⟩

/-- A switch that can also be left at its default. -/
def boolOrDefault : Vocabulary := ⟨"BoolOrDefault", [
  ("True_", "true"), ("Default", "default"), ("False_", "false")]⟩

def buttonType : Vocabulary := ⟨"ButtonType", [
  ("Submit", "submit"), ("Reset", "reset"), ("Button", "button")]⟩

def crossOrigin : Vocabulary := ⟨"CrossOrigin", [
  ("Anonymous", "anonymous"), ("UseCredentials", "use-credentials")]⟩

def formEncodingType : Vocabulary := ⟨"FormEncodingType", [
  ("UrlEncoded", "application/x-www-form-urlencoded"), ("FormData", "multipart/form-data"),
  ("Text", "text/plain")]⟩

def formMethod : Vocabulary := ⟨"FormMethod", [
  ("Post", "post"), ("Get", "get")]⟩

def formDialogMethod : Vocabulary := ⟨"FormDialogMethod", [
  ("Post", "post"), ("Get", "get"), ("Dialog", "dialog")]⟩

def httpEquiv : Vocabulary := ⟨"HTTPEquiv", [
  ("ContentSecurityPolicy", "content-security-policy"), ("Refresh", "refresh")]⟩

def imageDecoding : Vocabulary := ⟨"ImageDecoding", [
  ("Sync", "sync"), ("Async", "async"), ("Auto", "auto")]⟩

def inputType : Vocabulary := ⟨"InputType", [
  ("Button", "button"), ("Checkbox", "checkbox"), ("Color", "color"), ("Date", "date"),
  ("DatetimeLocal", "datetime-local"), ("Email", "email"), ("File", "file"),
  ("Hidden", "hidden"), ("Image", "image"), ("Month", "month"), ("Number", "number"),
  ("Password", "password"), ("Radio", "radio"), ("Range", "range"), ("Reset", "reset"),
  ("Search", "search"), ("Submit", "submit"), ("Tel", "tel"), ("Text", "text"), ("Time", "time"),
  ("Url", "url"), ("Week", "week")]⟩

def linkType : Vocabulary := ⟨"LinkType", [
  ("Alternate", "alternate"), ("Author", "author"), ("Bookmark", "bookmark"),
  ("Canonical", "canonical"), ("External", "external"), ("Help", "help"), ("Icon", "icon"),
  ("License", "license"), ("Manifest", "manifest"), ("ModulePreload", "modulepreload"),
  ("Next", "next"), ("NoFollow", "nofollow"), ("NoOpener", "noopener"),
  ("NoReferrer", "noreferrer"), ("PingBack", "pingback"), ("Prefetch", "prefetch"),
  ("Preload", "preload"), ("Prev", "prev"), ("Search", "search"), ("ShortLink", "shortlink"),
  ("StyleSheet", "stylesheet"), ("Tag", "tag")]⟩

def metadata : Vocabulary := ⟨"Metadata", [
  ("ApplicationName", "application-name"), ("Author", "author"), ("Description", "description"),
  ("Generator", "generator"), ("Keywords", "keywords"), ("Referrer", "referrer"),
  ("Creator", "creator"), ("Googlebot", "googlebot"), ("Publisher", "publisher"),
  ("Robots", "robots"), ("Viewport", "viewport")]⟩

def onOff : Vocabulary := ⟨"OnOff", [
  ("On", "on"), ("Off", "off")]⟩

def orderedListType : Vocabulary := ⟨"OrderedListType", [
  ("LowerCaseLetters", "a"), ("UpperCaseLetters", "A"), ("LowerCaseRomanNumerals", "i"),
  ("UpperCaseRomanNumerals", "I"), ("Numbers", "1")]⟩

/-- How much of a medium is loaded ahead. -/
def preload : Vocabulary := ⟨"Preload", [
  ("None_", "none"), ("Metadata", "metadata"), ("Auto", "auto")]⟩

def referrerPolicy : Vocabulary := ⟨"ReferrerPolicy", [
  ("NoReferrer", "no-referrer"), ("NoReferrerWhenDowngrade", "no-referrer-when-downgrade"),
  ("Origin", "origin"), ("OriginWhenCrossOrigin", "origin-when-cross-origin"),
  ("UnsafeUrl", "unsafe-url")]⟩

def role : Vocabulary := ⟨"Role", [
  ("Any", "any"), ("Alert", "alert"), ("AlertDialog", "alertdialog"),
  ("Application", "application"), ("Article", "article"), ("Banner", "banner"),
  ("Checkbox", "checkbox"), ("Cell", "cell"), ("ColumnHeader", "columnheader"),
  ("ComboBox", "combobox"), ("Complementary", "complementary"), ("ContentInfo", "contentinfo"),
  ("Definition", "definition"), ("Dialog", "dialog"), ("Directory", "directory"),
  ("Document", "document"), ("Feed", "feed"), ("Figure", "figure"), ("Form", "form"),
  ("Grid", "grid"), ("GridCell", "gridcell"), ("Group", "group"), ("Heading", "heading"),
  ("Image", "img"), ("Link", "link"), ("List", "list"), ("ListBox", "listbox"),
  ("ListItem", "listitem"), ("Log", "log"), ("Main", "main"), ("Marquee", "marquee"),
  ("Math", "math"), ("Menu", "menu"), ("MenuBar", "menubar"), ("MenuItem", "menuitem"),
  ("MenuItemCheckbox", "menuitemcheckbox"), ("MenuItemRadio", "menuitemradio"),
  ("Navigation", "navigation"), ("None_", "none"), ("Note", "note"), ("Option", "option"),
  ("Presentation", "presentation"), ("ProgressBar", "progressbar"), ("Radio", "radio"),
  ("RadioGroup", "radiogroup"), ("Region", "region"), ("Row", "row"), ("RowGroup", "rowgroup"),
  ("RowHeader", "rowheader"), ("ScrollBar", "scrollbar"), ("Search", "search"),
  ("SearchBox", "searchbox"), ("Separator", "separator"), ("Slider", "slider"),
  ("SpinButton", "spinbutton"), ("Status", "status"), ("Switch", "switch"), ("Tab", "tab"),
  ("Table", "table"), ("TabList", "tablist"), ("TabPanel", "tabpanel"), ("Term", "term"),
  ("TextBox", "textbox"), ("Timer", "timer"), ("ToolBar", "toolbar"), ("ToolTip", "tooltip"),
  ("Tree", "tree"), ("TreeGrid", "treegrid")]⟩

def sandbox : Vocabulary := ⟨"Sandbox", [
  ("AllowForms", "allow-forms"), ("AllowModals", "allow-modals"),
  ("AllowOrientationLock", "allow-orientation-lock"), ("AllowPointerLock", "allow-pointer-lock"),
  ("AllowPopups", "allow-popups"),
  ("AllowPopupsToEscapeSandbox", "allow-popups-to-escape-sandbox"),
  ("AllowPresentation", "allow-presentation"), ("AllowSameOrigin", "allow-same-origin"),
  ("AllowScripts", "allow-scripts"), ("AllowTopNavigation", "allow-top-navigation"),
  ("AllowTopNavigationByUserNavigation", "allow-top-navigation-by-user-navigation")]⟩

def tableHeaderScope : Vocabulary := ⟨"TableHeaderScope", [
  ("Row", "row"), ("Column", "col"), ("RowGroup", "rowgroup"), ("ColGroup", "colgroup"),
  ("Auto", "auto")]⟩

def textDirection : Vocabulary := ⟨"TextDirection", [
  ("LeftToRight", "ltr"), ("RightToLeft", "rtl")]⟩

def videoKind : Vocabulary := ⟨"VideoKind", [
  ("Subtitles", "subtitles"), ("Captions", "captions"), ("Descriptions", "descriptions"),
  ("Chapters", "chapters"), ("Metadata", "metadata")]⟩

def wrap : Vocabulary := ⟨"Wrap", [
  ("Hard", "hard"), ("Soft", "soft"), ("Off", "off")]⟩

def all : List Vocabulary := [
  areaShape, boolOrDefault, buttonType, crossOrigin, formEncodingType, formMethod,
  formDialogMethod, httpEquiv, imageDecoding, inputType, linkType, metadata, onOff,
  orderedListType, preload, referrerPolicy, role, sandbox, tableHeaderScope, textDirection,
  videoKind, wrap]

def named? (name : String) : Option Vocabulary :=
  all.find? fun vocabulary => vocabulary.name == name

end Vocabulary

end TypedMarkup
