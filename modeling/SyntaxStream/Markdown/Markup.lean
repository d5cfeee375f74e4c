import SyntaxStream.Markdown.Cursor
import SyntaxStream.Text.Blank

namespace SyntaxStream.Markdown.Markup

-- The elements whose tags start a block of markup that a blank line ends.
def blockTags : List String := [
  "address", "article", "aside", "base", "basefont", "blockquote", "body", "caption", "center",
  "col", "colgroup", "dd", "details", "dialog", "dir", "div", "dl", "dt", "fieldset",
  "figcaption", "figure", "footer", "form", "frame", "frameset", "h1", "h2", "h3", "h4", "h5",
  "h6", "head", "header", "hr", "html", "iframe", "legend", "li", "link", "main", "menu",
  "menuitem", "nav", "noframes", "ol", "optgroup", "option", "p", "param", "search", "section",
  "summary", "table", "tbody", "td", "tfoot", "th", "thead", "title", "tr", "track", "ul"]

-- The elements whose text is taken as it is, up to their closing tag.
def verbatimTags : List String := ["pre", "style", "script", "textarea"]

def startsWith (text : String) (cs : List Char) : Bool := text.toList.isPrefixOf cs

-- What ends the block whose opening angle bracket has been read, if it is not a blank line.
def blockEnd? (cs : List Char) : Option String :=
  let small := cs.map Char.toLower
  let verbatim := verbatimTags.find? fun tag =>
    startsWith tag small && (match cs.drop tag.length with
      | [] => true
      | c :: _ => isSpace c || c == '>')
  match verbatim with
  | some tag => some ("</" ++ tag ++ ">")
  | none =>
    if startsWith "!--" cs then some "-->"
    else if startsWith "?" cs then some "?>"
    else if startsWith "![CDATA[" cs then some "]]>"
    else match cs with
      | '!' :: c :: _ => if c.isAlpha then some ">" else none
      | _ => none

-- Whether a tag of a block element starts here, its opening angle bracket having been read.
def startsBlockTag (cs : List Char) : Bool :=
  let body := if cs.head? == some '/' then cs.drop 1 else cs
  let name := body.takeWhile Char.isAlphanum
  blockTags.contains (Text.lowercase (String.ofList name)) &&
    (match body.drop name.length with
      | [] => true
      | '/' :: '>' :: _ => true
      | c :: _ => c == ' ' || c == '\t' || c == '\r' || c == '\n' || c == '>')

def afterValue? (cs : List Char) : Option (List Char) :=
  match cs with
  | [] => none
  | c :: rest =>
    if c == '"' || c == '\'' then
      let inner := rest.takeWhile fun d => d != c && d != '\n' && d != '\r'
      match rest.drop inner.length with
      | d :: after => if d == c then some after else none
      | [] => none
    else
      let stops (d : Char) : Bool :=
        " =><\n\r".toList.contains d || d.toNat == 0x60
      if stops c then none
      else some (cs.dropWhile fun d => !(stops d || d == '"' || d == '\''))

def isNameStart (c : Char) : Bool := c.isAlpha || c == '_' || c == ':'

def isNamePart (c : Char) : Bool :=
  c.isAlphanum || c == '_' || c == '.' || c == ':' || c == '-'

-- What follows an attribute. One blank before the next attribute is left.
def afterAttribute? (cs : List Char) : Option (List Char) :=
  match cs with
  | [] => none
  | c :: rest =>
    if !isNameStart c then none
    else
      let afterName := rest.dropWhile isNamePart
      match skipGaps afterName with
      | '=' :: value => afterValue? (skipGaps value)
      | after =>
        some (if after.length < afterName.length then ' ' :: after else afterName)

-- What follows the attributes of a tag on the same line. Each needs a blank before it.
def afterAttributes? (fuel : Nat) (cs : List Char) : Option (List Char) :=
  match fuel with
  | 0 => none
  | fuel + 1 =>
    let start := skipGaps cs
    match start with
    | [] => none
    | c :: _ =>
      if c == '\n' || c == '\r' then none
      else if c == '/' || c == '>' then some start
      else if start.length == cs.length then none
      else (afterAttribute? start).bind (afterAttributes? fuel)

-- Whether a line consists of a single complete tag, its opening angle bracket having been read.
def isTagLine (cs : List Char) : Bool :=
  let closing := cs.head? == some '/'
  let body := if closing then cs.drop 1 else cs
  match body with
  | [] => false
  | c :: rest =>
    if !c.isAlpha then false
    else
      let afterName := rest.dropWhile fun d => d.isAlphanum || d == '-'
      let inner := if closing then some afterName
        else afterAttributes? (afterName.length + 1) afterName
      match inner with
      | none => false
      | some inner =>
        let ending := skipGaps inner
        let ending := if !closing && ending.head? == some '/' then ending.drop 1 else ending
        match ending with
        | '>' :: after => isBlankLine after
        | _ => false

end SyntaxStream.Markdown.Markup
