/-
The tokens of an HTML document.

The machine is the tokenizer of the HTML standard, a state for each of its states and one
character at a time; where the standard reconsumes a character, the state that takes over
steps on it.  Text goes in one of three modes, and the tokenizer changes between them with the
elements it opens, as the tree builder of a document without scripts has it do.  The tables of
the character references are a parameter: what they say of the five characters that every
writer of HTML escapes is all that is used of them.

Left out are script data, CDATA sections, and what else has no part in such a document; a
comment is read to its end without the states in between.
-/
import Mathlib.Data.List.Basic
import Mathlib.Data.Sum.Basic

namespace Html

abbrev Name := List Char

def quotation : Char := '\x22'

def apostrophe : Char := '\x27'

inductive Token
  | char (c : Char)
  | startTag (name : Name) (attrs : List (Name × List Char)) (selfClosing : Bool)
  | endTag (name : Name)
  | comment (text : List Char)
  | doctype (text : List Char)
deriving DecidableEq, Repr

/-- The tables of the standard: a name with its semicolon, if it has one, and a code. -/
structure CharRefs where
  named : List Char → Option (List Char)
  numeric : ℕ → Char
  named_amp : named ['a', 'm', 'p', ';'] = some ['&']
  named_lt : named ['l', 't', ';'] = some ['<']
  named_gt : named ['g', 't', ';'] = some ['>']
  named_quot : named ['q', 'u', 'o', 't', ';'] = some [quotation]
  numeric_apos : numeric 39 = apostrophe

/-- The five characters, and any other code as its character. -/
instance : Inhabited CharRefs where
  default := {
    named := fun name =>
      if name = ['a', 'm', 'p', ';'] then some ['&']
      else if name = ['l', 't', ';'] then some ['<']
      else if name = ['g', 't', ';'] then some ['>']
      else if name = ['q', 'u', 'o', 't', ';'] then some [quotation]
      else none
    numeric := Char.ofNat
    named_amp := rfl
    named_lt := rfl
    named_gt := rfl
    named_quot := rfl
    numeric_apos := rfl }

/-- How the text of an element is read. -/
inductive Mode
  | data
  | rcdata (tag : Name)
  | rawtext (tag : Name)
deriving DecidableEq, Repr

structure Tag where
  closing : Bool
  name : Name
  attrs : List (Name × List Char) := []
deriving DecidableEq, Repr

inductive Quote
  | double | single | none
deriving DecidableEq, Repr

/-- Where a character reference stands. -/
inductive Place
  | text (m : Mode)
  | value (q : Quote) (t : Tag) (name : Name) (read : List Char)
deriving DecidableEq, Repr

inductive State
  | text (m : Mode)
  | charRef (place : Place) (read : List Char)
  | lessThan (m : Mode)
  | endTagOpen (m : Mode)
  | rawEndName (m : Mode) (read : List Char)
  | tagName (t : Tag)
  | beforeAttrName (t : Tag)
  | attrName (t : Tag) (name : Name)
  | afterAttrName (t : Tag) (name : Name)
  | beforeAttrValue (t : Tag) (name : Name)
  | attrValue (q : Quote) (t : Tag) (name : Name) (value : List Char)
  | afterAttrValue (t : Tag)
  | selfClosing (t : Tag)
  | markupDecl (read : List Char)
  | comment (read : List Char)
  | bogusComment (read : List Char)
  | doctype (read : List Char)
deriving DecidableEq, Repr

def replacement : Char := '\uFFFD'

def isBlank (c : Char) : Bool := c = '\t' || c = '\n' || c = '\x0c' || c = ' '

/-- A character of a name: lower case, and no U+0000. -/
def nameChar (c : Char) : Char := if c = '\x00' then replacement else c.toLower

def valueChar (c : Char) : Char := if c = '\x00' then replacement else c

/-! ### Tags -/

/-- The first of two attributes of one name counts. -/
def Tag.addAttr (t : Tag) (name : Name) (value : List Char) : Tag :=
  if t.attrs.any (·.1 = name) then t else { t with attrs := t.attrs ++ [(name, value)] }

/-- How the text after a tag is read. -/
def Tag.mode (t : Tag) : Mode :=
  if t.closing then .data
  else if t.name ∈ ["title".toList, "textarea".toList] then .rcdata t.name
  else if t.name ∈ ["style".toList, "xmp".toList, "iframe".toList, "noembed".toList,
    "noframes".toList] then .rawtext t.name
  else .data

/-- What a step comes to: the next state and the tokens that are emitted. -/
abbrev Out := State × List Token

def Tag.emit (t : Tag) (selfClosing : Bool := false) : Out :=
  (.text t.mode, [if t.closing then .endTag t.name else .startTag t.name t.attrs selfClosing])

/-! ### A step of each state but the character references -/

/-- A character of a text as its mode gives it. -/
def Mode.shown : Mode → Char → Char
  | .data, c => c
  | _, c => valueChar c

/-- The modes in which character references are read. -/
def Mode.Decodes : Mode → Prop
  | .rawtext _ => False
  | _ => True

instance (m : Mode) : Decidable m.Decodes := by
  cases m <;> unfold Mode.Decodes <;> infer_instance

def textStep (m : Mode) (c : Char) : Out :=
  if c = '<' then (.lessThan m, [])
  else if c = '&' && decide m.Decodes then (.charRef (.text m) [], [])
  else (.text m, [.char (m.shown c)])

/-- Text that was taken for the beginning of a tag, and the character that shows it is not. -/
def textAgain (m : Mode) (read : List Char) (c : Char) : Out :=
  let out := textStep m c
  (out.1, read.map .char ++ out.2)

def lessThanStep (m : Mode) (c : Char) : Out :=
  if c = '/' then (.endTagOpen m, [])
  else if m ≠ .data then textAgain m ['<'] c
  else if c = '!' then (.markupDecl [], [])
  else if c.isAlpha then (.tagName { closing := false, name := [c.toLower] }, [])
  else if c = '?' then (.bogusComment [c], [])
  else textAgain m ['<'] c

def endTagOpenStep (m : Mode) (c : Char) : Out :=
  if m ≠ .data then
    if c.isAlpha then (.rawEndName m [c], []) else textAgain m ['<', '/'] c
  else if c.isAlpha then (.tagName { closing := true, name := [c.toLower] }, [])
  else if c = '>' then (.text m, [])
  else (.bogusComment [valueChar c], [])

def Mode.tag : Mode → Name
  | .data => []
  | .rcdata tag => tag
  | .rawtext tag => tag

/-- Only the end tag of the element ends its text. -/
def rawEndNameStep (m : Mode) (read : List Char) (c : Char) : Out :=
  let name := read.map Char.toLower
  if name = m.tag && isBlank c then (.beforeAttrName { closing := true, name }, [])
  else if name = m.tag && c = '/' then (.selfClosing { closing := true, name }, [])
  else if name = m.tag && c = '>' then ({ closing := true, name } : Tag).emit
  else if c.isAlpha then (.rawEndName m (read ++ [c]), [])
  else textAgain m ('<' :: '/' :: read) c

def tagNameStep (t : Tag) (c : Char) : Out :=
  if isBlank c then (.beforeAttrName t, [])
  else if c = '/' then (.selfClosing t, [])
  else if c = '>' then t.emit
  else (.tagName { t with name := t.name ++ [nameChar c] }, [])

def attrNameStep (t : Tag) (name : Name) (c : Char) : Out :=
  if isBlank c then (.afterAttrName t name, [])
  else if c = '/' then (.selfClosing (t.addAttr name []), [])
  else if c = '>' then (t.addAttr name []).emit
  else if c = '=' then (.beforeAttrValue t name, [])
  else (.attrName t (name ++ [nameChar c]), [])

def beforeAttrNameStep (t : Tag) (c : Char) : Out :=
  if isBlank c then (.beforeAttrName t, [])
  else if c = '/' then (.selfClosing t, [])
  else if c = '>' then t.emit
  else if c = '=' then (.attrName t ['='], [])
  else attrNameStep t [] c

def afterAttrNameStep (t : Tag) (name : Name) (c : Char) : Out :=
  if isBlank c then (.afterAttrName t name, [])
  else if c = '/' then (.selfClosing (t.addAttr name []), [])
  else if c = '=' then (.beforeAttrValue t name, [])
  else if c = '>' then (t.addAttr name []).emit
  else attrNameStep (t.addAttr name []) [] c

def attrValueStep (q : Quote) (t : Tag) (name : Name) (value : List Char) (c : Char) : Out :=
  if q = .double && c = quotation || q = .single && c = apostrophe then
    (.afterAttrValue (t.addAttr name value), [])
  else if q = .none && isBlank c then (.beforeAttrName (t.addAttr name value), [])
  else if q = .none && c = '>' then (t.addAttr name value).emit
  else if c = '&' then (.charRef (.value q t name value) [], [])
  else (.attrValue q t name (value ++ [valueChar c]), [])

def beforeAttrValueStep (t : Tag) (name : Name) (c : Char) : Out :=
  if isBlank c then (.beforeAttrValue t name, [])
  else if c = quotation then (.attrValue .double t name [], [])
  else if c = apostrophe then (.attrValue .single t name [], [])
  else if c = '>' then (t.addAttr name []).emit
  else attrValueStep .none t name [] c

def afterAttrValueStep (t : Tag) (c : Char) : Out :=
  if isBlank c then (.beforeAttrName t, [])
  else if c = '/' then (.selfClosing t, [])
  else if c = '>' then t.emit
  else beforeAttrNameStep t c

def selfClosingStep (t : Tag) (c : Char) : Out :=
  if c = '>' then t.emit true else beforeAttrNameStep t c

def bogusCommentStep (read : List Char) (c : Char) : Out :=
  if c = '>' then (.text .data, [.comment read]) else (.bogusComment (read ++ [valueChar c]), [])

/-- `<!--`, `<!doctype`, or a comment that is none. -/
def markupDeclStep (read : List Char) (c : Char) : Out :=
  let read' := read ++ [c]
  if read' = ['-', '-'] then (.comment [], [])
  else if read'.map Char.toLower = "doctype".toList then (.doctype [], [])
  else if read' = ['-'] || (read'.map Char.toLower).isPrefixOf "doctype".toList then
    (.markupDecl read', [])
  else bogusCommentStep read c

/-- A comment ends with `-->` or `--!>`, or at once. -/
def commentStep (read : List Char) (c : Char) : Out :=
  let close (n : ℕ) : Out := (.text .data, [.comment (read.take (read.length - n))])
  if c = '>' && ['-', '-'].isSuffixOf read then close 2
  else if c = '>' && ['-', '-', '!'].isSuffixOf read then close 3
  else if c = '>' && (read = [] || read = ['-']) then (.text .data, [.comment []])
  else (.comment (read ++ [valueChar c]), [])

def doctypeStep (read : List Char) (c : Char) : Out :=
  if c = '>' then (.text .data, [.doctype read])
  else if read = [] && isBlank c then (.doctype [], [])
  else (.doctype (read ++ [nameChar c]), [])

/-- A step of every state but the character references, which have tables. -/
def plainStep : State → Char → Option Out
  | .charRef _ _, _ => none
  | .text m, c => some (textStep m c)
  | .lessThan m, c => some (lessThanStep m c)
  | .endTagOpen m, c => some (endTagOpenStep m c)
  | .rawEndName m read, c => some (rawEndNameStep m read c)
  | .tagName t, c => some (tagNameStep t c)
  | .beforeAttrName t, c => some (beforeAttrNameStep t c)
  | .attrName t name, c => some (attrNameStep t name c)
  | .afterAttrName t name, c => some (afterAttrNameStep t name c)
  | .beforeAttrValue t name, c => some (beforeAttrValueStep t name c)
  | .attrValue q t name value, c => some (attrValueStep q t name value c)
  | .afterAttrValue t, c => some (afterAttrValueStep t c)
  | .selfClosing t, c => some (selfClosingStep t c)
  | .markupDecl read, c => some (markupDeclStep read c)
  | .comment read, c => some (commentStep read c)
  | .bogusComment read, c => some (bogusCommentStep read c)
  | .doctype read, c => some (doctypeStep read c)

/-! ### Character references -/

/-- Characters where the reference stands: text, or a part of the value. -/
def Place.put (place : Place) (read : List Char) : Out :=
  match place with
  | .text m => (.text m, read.map .char)
  | .value q t name before => (.attrValue q t name (before ++ read), [])

/-- The state that takes over at a character, after what was put there. -/
def Place.again (place : Place) (read : List Char) (c : Char) : Out :=
  match place with
  | .text m => textAgain m read c
  | .value q t name before => attrValueStep q t name (before ++ read) c

/-- The longest beginning that the table has, and what is left of it. -/
def longest (named : List Char → Option (List Char)) (read : List Char) :
    Option (List Char × List Char) :=
  (List.range (read.length + 1)).reverse.findSome? fun n =>
    (named (read.take n)).map fun chars => (chars, read.drop n)

/-- In a value, a name without its semicolon is text if the value goes on like a name. -/
def inName (place : Place) (left : List Char) (c : Char) : Bool :=
  match place with
  | .text _ => false
  | .value .. => (left.headD c).isAlphanum || left.headD c = '='

def namedRef (refs : CharRefs) (place : Place) (read : List Char) (c : Char) : Out :=
  if c = ';' then
    match longest refs.named (read ++ [c]) with
    | some (chars, []) => place.put chars
    | some (chars, left) =>
        if inName place left c then place.put ('&' :: read ++ [c]) else place.put (chars ++ left)
    | none => place.put ('&' :: read ++ [c])
  else
    match longest refs.named read with
    | some (chars, left) =>
        if inName place left c then place.again ('&' :: read) c else place.again (chars ++ left) c
    | none => place.again ('&' :: read) c

def digitValue (c : Char) : ℕ :=
  if c.isDigit then c.toNat - 48 else c.toLower.toNat - 97 + 10

def isHexDigit (c : Char) : Bool := c.isDigit || 'a' ≤ c.toLower && c.toLower ≤ 'f'

/-- What is read of a numeric reference: the digits, and their base. -/
def numericDigits : List Char → ℕ × List Char
  | 'x' :: ds | 'X' :: ds => (16, ds)
  | ds => (10, ds)

def numericRef (refs : CharRefs) (place : Place) (read : List Char) (c : Char) : Out :=
  let (base, ds) := numericDigits read
  if (if base = 16 then isHexDigit c else c.isDigit) then (.charRef place ('#' :: read ++ [c]), [])
  else if read = [] && (c = 'x' || c = 'X') then (.charRef place ['#', c], [])
  else if ds = [] then place.again ('&' :: '#' :: read) c
  else
    let char := refs.numeric (ds.foldl (fun n d => base * n + digitValue d) 0)
    if c = ';' then place.put [char] else place.again [char] c

def charRefStep (refs : CharRefs) (place : Place) (read : List Char) (c : Char) : Out :=
  match read with
  | [] =>
      if c.isAlphanum then (.charRef place [c], [])
      else if c = '#' then (.charRef place ['#'], [])
      else place.again ['&'] c
  | '#' :: read => numericRef refs place read c
  | read =>
      if c.isAlphanum then (.charRef place (read ++ [c]), []) else namedRef refs place read c

/-! ### Whole documents -/

def step (refs : CharRefs) (s : State) (c : Char) : Out :=
  match s with
  | .charRef place read => charRefStep refs place read c
  | s => (plainStep s c).getD (s, [])

def run (refs : CharRefs) : State → List Char → Out
  | s, [] => (s, [])
  | s, c :: cs =>
      let out := step refs s c
      let rest := run refs out.1 cs
      (rest.1, out.2 ++ rest.2)

/-- The input stream has one line break, U+000A: one that follows a U+000D is dropped. -/
def newlinesFrom : Bool → List Char → List Char
  | _, [] => []
  | afterReturn, c :: cs =>
      if c = '\n' && afterReturn then newlinesFrom false cs
      else if c = '\r' then '\n' :: newlinesFrom true cs
      else c :: newlinesFrom false cs

def newlines (cs : List Char) : List Char := newlinesFrom false cs

/-- What the end of the file leaves of an unfinished text; an unfinished tag is dropped. -/
def atEnd (refs : CharRefs) : State → List Token
  | .text _ => []
  | .charRef (.text m) read =>
      let out := charRefStep refs (.text m) read ' '
      out.2.dropLast
  | .lessThan _ => [.char '<']
  | .endTagOpen _ => [.char '<', .char '/']
  | .rawEndName _ read => ('<' :: '/' :: read).map .char
  | .markupDecl read => [.comment read]
  | .comment read => [.comment read]
  | .bogusComment read => [.comment read]
  | .doctype read => [.doctype read]
  | _ => []

def tokens (refs : CharRefs) (html : List Char) : List Token :=
  let out := run refs (.text .data) (newlines html)
  out.2 ++ atEnd refs out.1

end Html
