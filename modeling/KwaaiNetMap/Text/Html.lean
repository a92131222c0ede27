import Mathlib.Data.List.Basic

/-!
The tokenizer of HTML as far as tags go; comments, character references and text leave nothing behind. Text
without `<` opens no tag (`text`), and short of `plaintext` there is no state in which every text is
harmless (`tags_differ`).
-/

namespace Html

/-- Elements whose content is text up to their own end tag; a script's comments are text like the rest. -/
inductive TextElement where
  | title | textarea | style | script | xmp | iframe | noembed | noframes | noscript
  deriving DecidableEq

namespace TextElement

def all : List TextElement :=
  [title, textarea, style, script, xmp, iframe, noembed, noframes, noscript]

def name : TextElement → List Char
  | title => "title".toList
  | textarea => "textarea".toList
  | style => "style".toList
  | script => "script".toList
  | xmp => "xmp".toList
  | iframe => "iframe".toList
  | noembed => "noembed".toList
  | noframes => "noframes".toList
  | noscript => "noscript".toList

end TextElement

structure Tag where
  closing : Bool
  name : List Char
  /-- Names with their values as they are written, the latest first. -/
  attributes : List (List Char × List Char) := []
  deriving DecidableEq

inductive State where
  | data
  | tagOpen
  | endTagOpen
  | tagName (tag : Tag)
  | beforeAttributeName (tag : Tag)
  | attributeName (tag : Tag)
  | afterAttributeName (tag : Tag)
  | beforeAttributeValue (tag : Tag)
  | attributeValueQuoted (quote : Char) (tag : Tag)
  | attributeValueUnquoted (tag : Tag)
  | bogusComment
  | markupDeclaration
  | markupDeclarationDash
  | commentStart
  | commentStartDash
  | comment
  | commentEndDash
  | commentEnd
  | commentEndBang
  | rawText (element : TextElement)
  | rawTextLessThan (element : TextElement)
  | rawTextEndTagOpen (element : TextElement)
  | rawTextEndTagName (element : TextElement) (buffer : List Char)
  | plaintext
  deriving DecidableEq

namespace Tag

def rename (tag : Tag) (c : Char) : Tag := { tag with name := tag.name ++ [c.toLower] }

def startAttribute (tag : Tag) (c : Char) : Tag :=
  { tag with attributes := ([c.toLower], []) :: tag.attributes }

def renameAttribute (tag : Tag) (c : Char) : Tag :=
  { tag with attributes := tag.attributes.modifyHead fun a => (a.1 ++ [c.toLower], a.2) }

def extendValue (tag : Tag) (c : Char) : Tag :=
  { tag with attributes := tag.attributes.modifyHead fun a => (a.1, a.2 ++ [c]) }

def next (tag : Tag) : State :=
  if tag.closing then .data
  else if tag.name = "plaintext".toList then .plaintext
  else ((TextElement.all.find? fun e => e.name = tag.name).map .rawText).getD .data

end Tag

def isSpace (c : Char) : Bool := c = '\t' || c = '\n' || c = '\x0c' || c = '\r' || c = ' '

def goto (s : State) : State × Option Tag := (s, none)

def emit (tag : Tag) : State × Option Tag := (tag.next, some tag)

def stepRawText (e : TextElement) (c : Char) : State :=
  if c = '<' then .rawTextLessThan e else .rawText e

/-- A slash between attributes stands for a space, the way it does in elements of HTML itself. -/
def stepAttributes (tag : Tag) (c : Char) : State × Option Tag :=
  if c = '>' then emit tag
  else if isSpace c || c = '/' then goto (.beforeAttributeName tag)
  else goto (.attributeName (tag.startAttribute c))

def step : State → Char → State × Option Tag
  | .data, c => goto (if c = '<' then .tagOpen else .data)
  | .tagOpen, c =>
    if c = '!' then goto .markupDeclaration
    else if c = '/' then goto .endTagOpen
    else if c = '?' then goto .bogusComment
    else if c.isAlpha then goto (.tagName { closing := false, name := [c.toLower] })
    else goto (if c = '<' then .tagOpen else .data)
  | .endTagOpen, c =>
    if c.isAlpha then goto (.tagName { closing := true, name := [c.toLower] })
    else goto (if c = '>' then .data else .bogusComment)
  | .tagName tag, c =>
    if c = '>' then emit tag
    else if isSpace c || c = '/' then goto (.beforeAttributeName tag)
    else goto (.tagName (tag.rename c))
  | .beforeAttributeName tag, c => stepAttributes tag c
  | .attributeName tag, c =>
    if c = '>' then emit tag
    else if isSpace c then goto (.afterAttributeName tag)
    else if c = '/' then goto (.beforeAttributeName tag)
    else if c = '=' then goto (.beforeAttributeValue tag)
    else goto (.attributeName (tag.renameAttribute c))
  | .afterAttributeName tag, c =>
    if isSpace c then goto (.afterAttributeName tag)
    else if c = '=' then goto (.beforeAttributeValue tag)
    else stepAttributes tag c
  | .beforeAttributeValue tag, c =>
    if c = '>' then emit tag
    else if isSpace c then goto (.beforeAttributeValue tag)
    else if c = '\"' || c = '\'' then goto (.attributeValueQuoted c tag)
    else goto (.attributeValueUnquoted (tag.extendValue c))
  | .attributeValueQuoted quote tag, c =>
    if c = quote then goto (.beforeAttributeName tag)
    else goto (.attributeValueQuoted quote (tag.extendValue c))
  | .attributeValueUnquoted tag, c =>
    if c = '>' then emit tag
    else if isSpace c then goto (.beforeAttributeName tag)
    else goto (.attributeValueUnquoted (tag.extendValue c))
  | .bogusComment, c => goto (if c = '>' then .data else .bogusComment)
  -- a doctype ends where a comment of this kind does
  | .markupDeclaration, c =>
    goto (if c = '-' then .markupDeclarationDash else if c = '>' then .data else .bogusComment)
  | .markupDeclarationDash, c =>
    goto (if c = '-' then .commentStart else if c = '>' then .data else .bogusComment)
  | .commentStart, c => goto (if c = '-' then .commentStartDash else if c = '>' then .data else .comment)
  | .commentStartDash, c => goto (if c = '-' then .commentEnd else if c = '>' then .data else .comment)
  | .comment, c => goto (if c = '-' then .commentEndDash else .comment)
  | .commentEndDash, c => goto (if c = '-' then .commentEnd else .comment)
  | .commentEnd, c =>
    goto (if c = '>' then .data else if c = '!' then .commentEndBang
      else if c = '-' then .commentEnd else .comment)
  | .commentEndBang, c => goto (if c = '-' then .commentEndDash else if c = '>' then .data else .comment)
  | .rawText e, c => goto (stepRawText e c)
  | .rawTextLessThan e, c => goto (if c = '/' then .rawTextEndTagOpen e else stepRawText e c)
  | .rawTextEndTagOpen e, c =>
    goto (if c.isAlpha then .rawTextEndTagName e [c.toLower] else stepRawText e c)
  | .rawTextEndTagName e buffer, c =>
    if c.isAlpha then goto (.rawTextEndTagName e (buffer ++ [c.toLower]))
    else if (c = '>' || isSpace c || c = '/') && buffer = e.name then
      stepAttributes { closing := true, name := e.name } c
    else goto (stepRawText e c)
  | .plaintext, _ => goto .plaintext

def after (s : State) (cs : List Char) : State := cs.foldl (fun s c => (step s c).1) s

def tagsFrom : State → List Char → List Tag
  | _, [] => []
  | s, c :: cs => (step s c).2.toList ++ tagsFrom (step s c).1 cs

def tags (html : String) : List Tag := tagsFrom .data html.toList

/-! ### One text after another -/

@[simp] theorem after_nil (s : State) : after s [] = s := rfl

@[simp] theorem after_cons (s : State) (c : Char) (cs : List Char) :
    after s (c :: cs) = after (step s c).1 cs := rfl

theorem after_append (s : State) (a b : List Char) : after s (a ++ b) = after (after s a) b :=
  List.foldl_append

theorem tagsFrom_append (s : State) (a b : List Char) :
    tagsFrom s (a ++ b) = tagsFrom s a ++ tagsFrom (after s a) b := by
  induction a generalizing s with
  | nil => rfl
  | cons c a ih => rw [List.cons_append, tagsFrom, ih, tagsFrom, List.append_assoc, after_cons]

theorem tagsFrom_plaintext (cs : List Char) : tagsFrom .plaintext cs = [] := by
  induction cs with
  | nil => rfl
  | cons c cs ih => rw [tagsFrom, step, goto, ih]; rfl

/-! ### Text that stays text -/

theorem step_data {c : Char} (other : c ≠ '<') : step .data c = (.data, none) := by
  rw [step, if_neg other]
  rfl

theorem text {cs : List Char} (inert : '<' ∉ cs) : after .data cs = .data ∧ tagsFrom .data cs = [] := by
  induction cs with
  | nil => exact ⟨rfl, rfl⟩
  | cons c cs ih =>
    obtain ⟨first, rest⟩ := not_or.mp fun member => inert (List.mem_cons.mpr member)
    have still := step_data (Ne.symm first)
    rw [after_cons, tagsFrom, still]
    exact ih rest

theorem step_quoted {quote c : Char} (other : c ≠ quote) (tag : Tag) :
    step (.attributeValueQuoted quote tag) c = (.attributeValueQuoted quote (tag.extendValue c), none) := by
  rw [step, if_neg other]
  rfl

theorem quoted {quote : Char} {cs : List Char} (inert : quote ∉ cs) (tag : Tag) :
    after (.attributeValueQuoted quote tag) cs = .attributeValueQuoted quote (cs.foldl Tag.extendValue tag) ∧
      tagsFrom (.attributeValueQuoted quote tag) cs = [] := by
  induction cs generalizing tag with
  | nil => exact ⟨rfl, rfl⟩
  | cons c cs ih =>
    obtain ⟨first, rest⟩ := not_or.mp fun member => inert (List.mem_cons.mpr member)
    have still := step_quoted (Ne.symm first) tag
    rw [after_cons, tagsFrom, still]
    exact ih rest (tag.extendValue c)

theorem endTag_reaches (e : TextElement) :
    after (.rawTextLessThan e) ('/' :: e.name ++ [' ']) =
      .beforeAttributeName { closing := true, name := e.name } := by
  cases e <;> rfl

theorem reaches_attributes {s : State} (live : s ≠ .plaintext) :
    ∃ cs tag, after s cs = .beforeAttributeName tag := by
  cases s with
  | plaintext => exact absurd rfl live
  | data => exact ⟨['<', 'b', ' '], _, rfl⟩
  | tagOpen => exact ⟨['b', ' '], _, rfl⟩
  | endTagOpen => exact ⟨['b', ' '], _, rfl⟩
  | tagName tag => exact ⟨[' '], tag, rfl⟩
  | beforeAttributeName tag => exact ⟨[], tag, rfl⟩
  | attributeName tag => exact ⟨['/'], tag, rfl⟩
  | afterAttributeName tag => exact ⟨['/'], tag, rfl⟩
  | beforeAttributeValue tag => exact ⟨['x', ' '], tag.extendValue 'x', rfl⟩
  | attributeValueQuoted quote tag => exact ⟨[quote], tag, congrArg Prod.fst (if_pos rfl)⟩
  | attributeValueUnquoted tag => exact ⟨[' '], tag, rfl⟩
  | bogusComment => exact ⟨['>', '<', 'b', ' '], _, rfl⟩
  | markupDeclaration => exact ⟨['>', '<', 'b', ' '], _, rfl⟩
  | markupDeclarationDash => exact ⟨['>', '<', 'b', ' '], _, rfl⟩
  | commentStart => exact ⟨['>', '<', 'b', ' '], _, rfl⟩
  | commentStartDash => exact ⟨['>', '<', 'b', ' '], _, rfl⟩
  | comment => exact ⟨['-', '-', '>', '<', 'b', ' '], _, rfl⟩
  | commentEndDash => exact ⟨['-', '>', '<', 'b', ' '], _, rfl⟩
  | commentEnd => exact ⟨['>', '<', 'b', ' '], _, rfl⟩
  | commentEndBang => exact ⟨['>', '<', 'b', ' '], _, rfl⟩
  | rawText e => exact ⟨'<' :: ('/' :: e.name ++ [' ']), _, endTag_reaches e⟩
  | rawTextLessThan e => exact ⟨'/' :: e.name ++ [' '], _, endTag_reaches e⟩
  | rawTextEndTagOpen e => exact ⟨'<' :: ('/' :: e.name ++ [' ']), _, endTag_reaches e⟩
  | rawTextEndTagName e buffer => exact ⟨'<' :: ('/' :: e.name ++ [' ']), _, endTag_reaches e⟩

/-- Short of the rest of a page taken as text, there are two texts with different tags in the same place. -/
theorem tags_differ {s : State} (live : s ≠ .plaintext) :
    ∃ a b : List Char, a ≠ [] ∧ b ≠ [] ∧ ∀ rest, tagsFrom s (a ++ rest) ≠ tagsFrom s (b ++ rest) := by
  obtain ⟨cs, tag, inside⟩ := reaches_attributes live
  refine ⟨cs ++ ['>'], cs ++ ['x', '>'], by simp, by simp, fun rest same => ?_⟩
  have closed : tagsFrom (.beforeAttributeName tag) ('>' :: rest) = tag :: tagsFrom tag.next rest := rfl
  have named : tagsFrom (.beforeAttributeName tag) ('x' :: '>' :: rest) =
      tag.startAttribute 'x' :: tagsFrom tag.next rest := rfl
  rw [List.append_assoc, List.append_assoc, tagsFrom_append s cs, tagsFrom_append s cs, inside] at same
  have rests := List.append_cancel_left same
  have heads := (List.cons.inj (closed.symm.trans (rests.trans named))).1
  have counts := congrArg (fun t => t.attributes.length) heads
  exact absurd counts (Nat.ne_of_lt (Nat.lt_succ_self _))

end Html
