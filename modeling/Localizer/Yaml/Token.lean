import Localizer.Yaml.Scalar

/-!
# YAML tokens

A YAML text is cut into tokens: the marks of documents, of block and flow collections and of their
entries, and scalars with their anchors and tags. Indentation opens and closes block collections.
A token may turn out to be a key when a colon follows it on its line; then the marks of the key,
and of the mapping that it opens, go in front of it.

`tokenize` gives the tokens of a text. If the text is malformed somewhere, the last token says so.
-/

namespace Localizer.Yaml

open Text

/-- A line of directions before a document. -/
inductive Directive where
  /-- The major version of the format. -/
  | version (major : Nat)
  /-- An abbreviation for tags. -/
  | tag (handle expansion : Text)
  | other
  deriving Repr, DecidableEq

/-- A token. -/
inductive Token where
  | streamEnd
  | directive (d : Directive)
  | documentStart
  | documentEnd
  | blockSequence
  | blockMapping
  | blockEnd
  | flowSequence
  | flowMapping
  | flowSequenceEnd
  | flowMappingEnd
  | blockEntry
  | flowEntry
  | key
  | value
  | alias (name : Text)
  | anchor (name : Text)
  /-- A tag: its handle, none if it is given in full, and the rest. -/
  | tag (handle : Option Text) (suffix : Text)
  | scalar (text : Message) (plain : Bool)
  /-- The text cannot be read from here on. -/
  | bad (e : Error)
  deriving Repr, DecidableEq

/-- A token that may turn out to be a key. -/
structure KeyCandidate where
  /-- How many tokens come before it. -/
  position : Nat
  /-- Whether it must be a key, since it stands where a key of a block mapping starts. -/
  required : Bool
  index : Nat
  line : Nat
  column : Nat
  deriving Repr, DecidableEq

/-- How far a text has been cut. -/
structure Lexing where
  cursor : Cursor
  tokens : Array Token := #[]
  /-- How many flow collections are open. -/
  flowDepth : Nat := 0
  /-- The column of the innermost block collection. -/
  indent : Int := -1
  /-- The columns of the block collections around it. -/
  outer : List Int := []
  /-- Whether a key may start here. -/
  keyAllowed : Bool := true
  /-- The key candidates of the open flow collections, by their depth. -/
  candidates : List (Nat × KeyCandidate) := []

namespace Lexing

/-- Whether a flow collection is open. -/
def inFlow (s : Lexing) : Bool := 0 < s.flowDepth

/-- The character at the cursor. -/
def peek (s : Lexing) : Char := s.cursor.peek

/-- Add a token. -/
def push (s : Lexing) (t : Token) : Lexing := { s with tokens := s.tokens.push t }

/-- Move the cursor on. -/
def advance (s : Lexing) (n : Nat) : Lexing := { s with cursor := s.cursor.skip n }

/-! ## Keys -/

/-- Drop the candidates on other lines or too far back; a required one must not be dropped. -/
def dropStale (s : Lexing) : Except Error Lexing :=
  let stale := fun (c : Nat × KeyCandidate) =>
    c.2.line != s.cursor.line || 1024 < s.cursor.index - c.2.index
  if s.candidates.any fun c => stale c && c.2.required then .error .malformed
  else .ok { s with candidates := s.candidates.filter (!stale ·) }

/-- The candidate of the innermost open collection. -/
def candidate? (s : Lexing) : Option KeyCandidate :=
  (s.candidates.find? (·.1 == s.flowDepth)).map Prod.snd

/-- Drop the candidate of the innermost collection, which must not be a required one. -/
def dropCandidate (s : Lexing) : Except Error Lexing :=
  match s.candidate? with
  | some c =>
    if c.required then .error .malformed
    else .ok { s with candidates := s.candidates.filter (·.1 != s.flowDepth) }
  | none => .ok s

/-- Note that the next token may be a key. -/
def saveCandidate (s : Lexing) : Except Error Lexing := do
  if s.keyAllowed then
    let required := !s.inFlow && s.indent == s.cursor.column
    let s ← s.dropCandidate
    let c : KeyCandidate :=
      ⟨s.tokens.size, required, s.cursor.index, s.cursor.line, s.cursor.column⟩
    return { s with candidates := s.candidates ++ [(s.flowDepth, c)] }
  else return s

/-! ## Indentation -/

/-- Close the block collections that are indented more than a column. -/
def unwind (column : Int) : Nat → Lexing → Lexing
  | 0, s => s
  | fuel + 1, s =>
    if s.inFlow || s.indent ≤ column then s
    else unwind column fuel
      { s.push .blockEnd with indent := s.outer.headD (-1), outer := s.outer.tail }

/-- Close the block collections that are indented more than a column. -/
def unwindTo (s : Lexing) (column : Int) : Lexing := unwind column (s.outer.length + 1) s

/-- Open a block collection at a column, unless it is open; put its token at a place among the
tokens. -/
def openBlock (s : Lexing) (column : Nat) (place : Nat) (t : Token) : Lexing :=
  if s.indent < column then
    { s with
      outer := s.indent :: s.outer
      indent := column
      tokens := s.tokens.insertIdxIfInBounds place t }
  else s

/-! ## Marks -/

/-- A mark that may stand wherever a line starts: close everything first. -/
def closeAll (s : Lexing) : Except Error Lexing := do
  let s ← (s.unwindTo (-1)).dropCandidate
  return { s with keyAllowed := false }

/-- The opening of a flow collection. -/
def openFlow (s : Lexing) (t : Token) : Except Error Lexing := do
  let s ← s.saveCandidate
  return { (s.push t).advance 1 with flowDepth := s.flowDepth + 1, keyAllowed := true }

/-- The closing of a flow collection. -/
def closeFlow (s : Lexing) (t : Token) : Except Error Lexing := do
  let s ← s.dropCandidate
  return { (s.push t).advance 1 with flowDepth := s.flowDepth - 1, keyAllowed := false }

/-- A comma. -/
def flowEntry (s : Lexing) : Except Error Lexing := do
  let s ← s.dropCandidate
  return { (s.push .flowEntry).advance 1 with keyAllowed := true }

/-- The dash of a sequence's entry. -/
def blockEntry (s : Lexing) : Except Error Lexing := do
  if !s.inFlow && !s.keyAllowed then .error .malformed
  else
    let s := if s.inFlow then s else s.openBlock s.cursor.column s.tokens.size .blockSequence
    let s ← s.dropCandidate
    return { (s.push .blockEntry).advance 1 with keyAllowed := true }

/-- The question mark of a key. -/
def explicitKey (s : Lexing) : Except Error Lexing := do
  if !s.inFlow && !s.keyAllowed then .error .malformed
  else
    let s := if s.inFlow then s else s.openBlock s.cursor.column s.tokens.size .blockMapping
    let s ← s.dropCandidate
    return { (s.push .key).advance 1 with keyAllowed := !s.inFlow }

/-- The colon of a value; the candidate, if there is one, is its key. -/
def colon (s : Lexing) : Except Error Lexing := do
  match s.candidate? with
  | some c =>
    let s := { s with
      candidates := s.candidates.filter (·.1 != s.flowDepth)
      tokens := s.tokens.insertIdxIfInBounds c.position .key
      keyAllowed := false }
    let s := if s.inFlow then s else s.openBlock c.column c.position .blockMapping
    return (s.push .value).advance 1
  | none =>
    if !s.inFlow && !s.keyAllowed then .error .malformed
    else
      let s := if s.inFlow then s else s.openBlock s.cursor.column s.tokens.size .blockMapping
      let s ← { s with keyAllowed := !s.inFlow }.dropCandidate
      return (s.push .value).advance 1

/-! ## Names and tags -/

/-- An anchor or alias; the cursor is at its mark. -/
def name (s : Lexing) (token : Text → Token) : Except Error Lexing := do
  let s ← s.saveCandidate
  let (text, c) := s.cursor.next.read isNameChar
  if text.isEmpty || !(isSpacing c.peek || "?:,]\x7d%@`".toList.contains c.peek) then
    .error .malformed
  else return { s.push (token text) with cursor := c, keyAllowed := false }

/-- The handle of a tag between two exclamation marks, or a single one before a space. -/
def tagHandle (c : Cursor) : Reading :=
  if c.peek != '!' then .error .malformed
  else if c.ahead 1 == ' ' then .ok (['!'], c.next)
  else
    let (text, d) := c.next.read isNameChar
    if d.peek == '!' then .ok ('!' :: (text ++ ['!']), d.next) else .error .malformed

/-- Characters of tags. -/
def isTagChar (c : Char) : Bool := c.isAlphanum || "-;/?:@&=+$,_.!~*'()[]".toList.contains c

/-- The bytes of a run of percent escapes, and the cursor behind them. -/
def percentBytes : Nat → Cursor → Except Error (List UInt8 × Cursor)
  | 0, _ => .error .malformed
  | fuel + 1, c =>
    if c.peek == '%' then
      let digits := c.next.rest.take 2
      if digits.length = 2 ∧ digits.all isHexDigit then do
        let (more, c) ← percentBytes fuel (c.skip 3)
        return ((numberOf 16 digits).toUInt8 :: more, c)
      else .error .malformed
    else .ok ([], c)

/-- The rest of a tag, which may hold percent escapes; `any` says whether some of it was read. -/
def tagText (any : Bool) : Nat → Cursor → Reading
  | 0, _ => .error .malformed
  | fuel + 1, c =>
    let (text, d) := c.read isTagChar
    if d.peek == '%' then do
      let (bytes, d) ← percentBytes d.fuel d
      match String.fromUTF8? ⟨bytes.toArray⟩ with
      | some decoded => Reading.after (text ++ decoded.toList) (tagText true fuel d)
      | none => .error .malformed
    else if any || !text.isEmpty then .ok (text, d)
    else .error .malformed

/-- A tag at the cursor: its handle and the rest. -/
def readTag (c : Cursor) : Except Error (Option Text × Text × Cursor) := do
  let (handle, suffix, c) ←
    if c.ahead 1 == '<' then do
      let (suffix, c) ← tagText false c.fuel (c.skip 2)
      if c.peek == '>' then pure (none, suffix, c.next) else .error .malformed
    else if isSpacing (c.ahead 1) then pure (none, ['!'], c.next)
    else if (c.next.span (!isGap ·)).contains '!' then do
      let (handle, c) ← tagHandle c
      let (suffix, c) ← tagText false c.fuel c
      pure (some handle, suffix, c)
    else do
      let (suffix, c) ← tagText false c.fuel c.next
      pure (some ['!'], suffix, c)
  if isGap c.peek then return (handle, suffix, c) else .error .malformed

/-- A tag. -/
def tag (s : Lexing) : Except Error Lexing := do
  let s ← s.saveCandidate
  let (handle, suffix, c) ← readTag s.cursor
  return { s.push (.tag handle suffix) with cursor := c, keyAllowed := false }

/-! ## Directives -/

/-- A number of a version directive. -/
def versionNumber (c : Cursor) : Except Error (Nat × Cursor) :=
  let (digits, c) := c.read Char.isDigit
  if digits.isEmpty then .error .malformed
  else if maxDigits < digits.length then .error .badScalar
  else .ok (numberOf 10 digits, c)

/-- The major version of a version directive; the cursor is behind its name. -/
def versionDirective (c : Cursor) : Except Error (Directive × Cursor) := do
  let (major, c) ← versionNumber (c.skipWhile (· == ' '))
  if c.peek != '.' then .error .malformed
  else
    let (_, c) ← versionNumber c.next
    if isGap c.peek then return (.version major, c) else .error .malformed

/-- The handle and the expansion of a tag directive; the cursor is behind its name. -/
def tagDirective (c : Cursor) : Except Error (Directive × Cursor) := do
  let (handle, c) ← tagHandle (c.skipWhile (· == ' '))
  if c.peek != ' ' then .error .malformed
  else
    let c := c.skipWhile (· == ' ')
    let (expansion, c) ← tagText false c.fuel c
    if isGap c.peek then return (.tag handle expansion, c) else .error .malformed

/-- A directive. -/
def directive (s : Lexing) : Except Error Lexing := do
  let s ← s.closeAll
  let (name, c) := s.cursor.next.read isNameChar
  if name.isEmpty || !isGap c.peek then .error .malformed
  else
    let (d, c) ←
      if name = "YAML".toList then versionDirective c
      else if name = "TAG".toList then tagDirective c
      else pure (.other, c.skipWhile (!endsLine ·))
    return { s.push (.directive d) with cursor := ← ignoredLine c }

/-! ## Scalars -/

/-- A quoted scalar. -/
def quoted (s : Lexing) : Except Error Lexing := do
  let s ← s.saveCandidate
  let (text, c) ← quotedScalar s.cursor
  return { s.push (.scalar text false) with cursor := c, keyAllowed := false }

/-- A block scalar. -/
def block (s : Lexing) (folded : Bool) : Except Error Lexing := do
  let s ← s.dropCandidate
  let (text, c) ← blockScalar folded s.indent s.cursor
  return { s.push (.scalar text false) with cursor := c, keyAllowed := true }

/-- Whether a plain scalar can start at the cursor. -/
def startsPlain (s : Lexing) : Bool :=
  let ch := s.peek
  !(isSpacing ch || "-?:,[]\x7b\x7d#&*!|>'\"%@`".toList.contains ch) ||
    (!isSpacing (s.cursor.ahead 1) && (ch == '-' || (!s.inFlow && (ch == '?' || ch == ':'))))

/-- A plain scalar. -/
def plain (s : Lexing) : Except Error Lexing := do
  let s ← s.saveCandidate
  let (text, lineStart, c) := plainScalar s.inFlow s.indent s.cursor
  return { s.push (.scalar text true) with cursor := c, keyAllowed := lineStart }

/-! ## The whole text -/

/-- Skip blanks, comments and line breaks up to the next token. -/
def skipBlanks : Nat → Lexing → Lexing
  | 0, s => s
  | fuel + 1, s =>
    let c := (s.cursor.skipWhile (· == ' ')).skipComment
    if isBreak c.peek then
      skipBlanks fuel { s with cursor := c.lineBreak.2, keyAllowed := s.keyAllowed || !s.inFlow }
    else { s with cursor := c }

/-- Read the next token. -/
def step (s : Lexing) : Except Error Lexing := do
  let s ← (skipBlanks s.cursor.fuel s).dropStale
  let s := s.unwindTo s.cursor.column
  let ch := s.peek
  let lineStart := s.cursor.column == 0
  let spaced := isSpacing (s.cursor.ahead 1)
  if ch == '\x00' then return (← s.closeAll).push .streamEnd
  else if ch == '%' && lineStart then s.directive
  else if lineStart && s.cursor.atMark "---".toList then
    return ((← s.closeAll).push .documentStart).advance 3
  else if lineStart && s.cursor.atMark "...".toList then
    return ((← s.closeAll).push .documentEnd).advance 3
  else if ch == '[' then s.openFlow .flowSequence
  else if ch == '{' then s.openFlow .flowMapping
  else if ch == ']' then s.closeFlow .flowSequenceEnd
  else if ch == '}' then s.closeFlow .flowMappingEnd
  else if ch == ',' then s.flowEntry
  else if ch == '-' && spaced then s.blockEntry
  else if ch == '?' && (s.inFlow || spaced) then s.explicitKey
  else if ch == ':' && (s.inFlow || spaced) then s.colon
  else if ch == '*' then s.name .alias
  else if ch == '&' then s.name .anchor
  else if ch == '!' then s.tag
  else if ch == '|' && !s.inFlow then s.block false
  else if ch == '>' && !s.inFlow then s.block true
  else if ch == '\'' || ch == '"' then s.quoted
  else if s.startsPlain then s.plain
  else .error .malformed

/-- The tokens that are settled: those before the first one that may still turn out to be a key. -/
def settled (s : Lexing) : List Token :=
  let open_ := (s.dropStale.toOption.getD s).candidates
  s.tokens.toList.take (open_.foldl (fun n c => min n c.2.position) s.tokens.size)

/-- Read tokens up to the end of the text. Where the text cannot be read on, the tokens that are not
settled are lost. -/
def run : Nat → Lexing → List Token
  | 0, s => s.settled ++ [.bad .malformed]
  | fuel + 1, s =>
    match s.step with
    | .error e => s.settled ++ [.bad e]
    | .ok s => if s.tokens.back? = some .streamEnd then s.tokens.toList else run fuel s

end Lexing

/-- The tokens of a text. -/
def tokenize (s : Text) : List Token :=
  if s.all isPrintable then
    let c := Cursor.start s
    let c := if c.peek == '\ufeff' then c.next else c
    Lexing.run (s.length + 2) { cursor := c }
  else [.bad .malformed]

end Localizer.Yaml
