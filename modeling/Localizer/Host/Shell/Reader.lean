import Localizer.Host.Shell.Syntax

/-!
# Reading scripts

Scripts are read one line of commands at a time, so that what stands before a mistake has been
carried out when the mistake is found. `Reader.line?` reads the next line: tokens become commands
by recursive descent, and a word is read part by part, in a context that says which characters end
it and which stand for themselves. Where a command may stand, a word that is an alias gives way to
its value, which is read in its place. All functions that read draw on one budget, which `budget`
makes large enough for any script: a call either takes a character away or goes at most a few levels
deeper.
-/

namespace Localizer.Host.Shell

open Text

/-- A token of a script. -/
inductive Token where
  | eof
  | newline
  | word (w : Word)
  | redirect (descriptor : Option Nat) (sign : Text)
  /-- A sign between commands, or around them. -/
  | sign (s : Text)
  /-- A reserved word where it has its meaning. -/
  | keyword (s : Text)

namespace Token

/-- How a token is named in a message. -/
def shown : Token → Text
  | eof => "end of file".toList
  | newline => "newline".toList
  | word _ => "word".toList
  | redirect .. => "redirection".toList
  | sign s => '"' :: s ++ ['"']
  | keyword s => '"' :: s ++ ['"']

/-- Whether a token is this sign. -/
def isSign (s : String) : Token → Bool
  | sign t => t == s.toList
  | _ => false

/-- Whether a token is this reserved word. -/
def isKeyword (s : String) : Token → Bool
  | keyword t => t == s.toList
  | _ => false

/-- The word that a token is, whether it is reserved or not. -/
def word? : Token → Option Word
  | word w => some w
  | keyword s => some [.plain s]
  | _ => none

/-- Whether a token ends a list of commands. -/
def endsList : Token → Bool
  | eof => true
  | sign s => [")", ";;"].any (·.toList == s)
  | keyword s => ["do", "done", "elif", "else", "esac", "fi", "then", "\x7d"].any (·.toList == s)
  | _ => false

end Token

/-- The reserved words. -/
def keywords : List Text :=
  ["!", "\x7b", "\x7d", "case", "do", "done", "elif", "else", "esac", "fi", "for", "if", "in",
   "then", "until", "while"].map String.toList

/-- What is wrong with a script. -/
inductive SyntaxFault where
  | openQuote
  | openBrace
  | openArithmetic
  | openBackquote
  | loopName
  | functionName
  | descriptor
  /-- A token stands where another one, or none of its kind, is expected. -/
  | unexpected (token : Text) (expected : Option Text)
  deriving Repr, DecidableEq

/-- The wording of a fault. -/
def SyntaxFault.message : SyntaxFault → Text
  | openQuote => "Unterminated quoted string".toList
  | openBrace => "Missing '\x7d'".toList
  | openArithmetic => "Missing '))'".toList
  | openBackquote => "EOF in backquote substitution".toList
  | loopName => "Bad for loop variable".toList
  | functionName => "Bad function name".toList
  | descriptor => "Bad fd number".toList
  | unexpected t none => t ++ " unexpected".toList
  | unexpected t (some e) => t ++ " unexpected (expecting ".toList ++ e ++ [')']

/-- A fault and the line up to which the script was read. -/
structure SyntaxError where
  line : Nat
  fault : SyntaxFault
  deriving Repr, DecidableEq

/-- A document that is announced on a line and follows it. -/
structure Announced where
  index : Nat
  /-- The line that ends the document. -/
  ending : Text
  /-- Whether the document holds expansions. -/
  expands : Bool
  /-- Whether tabs at the front of its lines are left out. -/
  stripsTabs : Bool
  deriving Repr, DecidableEq

/-- An alias whose value stands in the script in place of it. -/
structure Replaced where
  name : Text
  /-- How many characters follow the value. -/
  following : Nat
  /-- Whether the word after the value may be an alias too, since the value ends in a blank. -/
  goesOn : Bool
  deriving Repr, DecidableEq

/-- What a word may be beside a word. -/
inductive Search where
  | nothing
  | aliases
  | keywords
  /-- Both. -/
  | commands
  deriving Repr, DecidableEq

/-- Whether a word may be a reserved word. -/
def Search.findsKeywords : Search → Bool
  | keywords => true
  | commands => true
  | _ => false

/-- Whether a word may be an alias. -/
def Search.findsAliases : Search → Bool
  | aliases => true
  | commands => true
  | _ => false

/-- A search that finds aliases too. -/
def Search.orAliases : Search → Search
  | nothing => aliases
  | keywords => commands
  | s => s

/-- A script that is being read. -/
structure Reader where
  rest : Text
  line : Nat := 1
  /-- A token that was read and put back. -/
  pushed : Option Token := none
  /-- The token that was read last. -/
  last : Token := .eof
  /-- The word that was read last. -/
  lastWord : Word := []
  /-- Words that stand for other texts at the place of a command. -/
  aliases : List (Text × Text) := []
  /-- The aliases in whose values the token stands that was read last. -/
  replaced : List Replaced := []
  /-- Whether the value of an alias before the token says that it may be an alias. -/
  goesOn : Bool := false
  announced : List Announced := []
  /-- The documents of the script by their index. -/
  documents : Array Word := #[]

/-- A step of reading. -/
abbrev ReadM := StateT Reader (Except SyntaxError)

/-- What surrounds the characters of a word. -/
inductive Context where
  /-- Nothing. -/
  | word
  /-- Double quotes. -/
  | quotes
  /-- The braces of a parameter, within quotes or not. -/
  | braces (inQuotes : Bool)
  /-- An arithmetic expression, at a depth of brackets. -/
  | arithmetic (depth : Nat)
  | document
  deriving Repr, DecidableEq

/-- Whether expansions in a context are quoted. -/
def Context.isQuoted : Context → Bool
  | word => false
  | braces q => q
  | _ => true

/-- Whether double quotes in a context stand for themselves. -/
def Context.keepsQuotes : Context → Bool
  | arithmetic _ => true
  | document => true
  | _ => false

/-- A part with these characters, quoted or not according to the context. -/
def Context.text (k : Context) (s : Text) : Part := if k.isQuoted then .quoted s else .plain s

/-- Characters that end a word outside of quotes. -/
def endsWord (c : Char) : Bool := " \t\n;&|<>()".toList.contains c

/-- Characters of which the value is a parameter of the script itself. -/
def isSpecialParameter (c : Char) : Bool := "@*#?-$!".toList.contains c || c.isDigit

/-- Characters that can mean something in a word. -/
def isActive (c : Char) : Bool := "\\'\"$`\x7d()\n".toList.contains c || endsWord c

/-- How large a budget suffices to read a text in which words may be aliases. An alias does not
stand for anything in its own value, so a word becomes no longer than the product of all values. -/
def budget (aliases : List (Text × Text)) (s : Text) : Nat :=
  aliases.foldl (fun n a => n * (a.2.length + 1)) (16 * (s.length + 4))

namespace Reader

/-- Report a fault. -/
def raise {α : Type} (f : SyntaxFault) : ReadM α := do throw ⟨(← get).line, f⟩

/-- Report that the last token stands at a wrong place. -/
def unexpected {α : Type} : ReadM α := do
  raise (.unexpected (← get).last.shown none)

/-- Report that the last token is not this sign or reserved word. -/
def missing {α : Type} (s : String) : ReadM α := do
  raise (.unexpected (← get).last.shown (some ('"' :: s.toList ++ ['"'])))

/-- Go on with the text `rest` after `taken` was read. -/
def advance (taken rest : Text) : ReadM Unit :=
  modify fun r => { r with rest, line := r.line + taken.count '\n' }

/-- Note which aliases the next token stands in the values of. -/
def noteAliases : ReadM Unit := modify fun r =>
  if r.replaced.isEmpty then { r with goesOn := false }
  else
    let n := r.rest.length
    { r with
      goesOn := r.replaced.any fun a => a.goesOn && n ≤ a.following
      replaced := r.replaced.filter (·.following < n) }

/-- The value of a word that is an alias; none within its own value. -/
def alias? (r : Reader) (s : Text) : Option Text :=
  if r.replaced.any (·.name == s) then none else r.aliases.lookup s

/-- Go on with the value of an alias that was read. -/
def replace (name value : Text) : ReadM Unit := modify fun r =>
  if value.isEmpty then r
  else
    let goesOn := value.getLast?.any fun c => c == ' ' || c == '\t'
    { r with
      rest := value ++ r.rest
      replaced := ⟨name, r.rest.length, goesOn⟩ :: r.replaced }

/-- Put the last token back. -/
def pushBack : ReadM Unit := modify fun r => { r with pushed := some r.last }

/-- The text without blanks, joined lines and comments at its front. -/
def skipBlanks : Nat → Text → Nat × Text
  | n, ' ' :: s => skipBlanks n s
  | n, '\t' :: s => skipBlanks n s
  | n, '\\' :: '\n' :: s => skipBlanks (n + 1) s
  | n, '#' :: s => (n, s.dropWhile (· != '\n'))
  | n, s => (n, s)

/-- The signs between commands, the longest first. -/
def signs : List Text := ["&&", "||", ";;", ";", "&", "|", "(", ")"].map String.toList

/-- The signs of redirections, the longest first. -/
def redirectSigns : List Text :=
  ["<<-", "<<", "<&", "<>", "<", ">>", ">&", ">|", ">"].map String.toList

/-- One of the texts at the front of a text, and what follows. -/
def oneOf? (choices : List Text) (s : Text) : Option (Text × Text) :=
  choices.findSome? fun c => (after? c s).map (c, ·)

/-- The script between backquotes, and the text after it. A backslash stands for the next character
if that could mean something. -/
def untilBackquote (inQuotes : Bool) : Text → Option (Text × Text)
  | [] => none
  | '`' :: r => some ([], r)
  | '\\' :: '\n' :: r => untilBackquote inQuotes r
  | '\\' :: c :: r =>
    if c == '\\' || c == '`' || c == '$' || (inQuotes && c == '"') then
      prepend [c] (untilBackquote inQuotes r)
    else prepend ['\\', c] (untilBackquote inQuotes r)
  | c :: r => prepend [c] (untilBackquote inQuotes r)

/-- The operator of an expansion in braces, whether an empty value counts as none, and the rest. -/
def operator : Text → Operator × Bool × Text
  | ':' :: '-' :: r => (.default, true, r)
  | ':' :: '=' :: r => (.assign, true, r)
  | ':' :: '?' :: r => (.demand, true, r)
  | ':' :: '+' :: r => (.alternative, true, r)
  | '-' :: r => (.default, false, r)
  | '=' :: r => (.assign, false, r)
  | '?' :: r => (.demand, false, r)
  | '+' :: r => (.alternative, false, r)
  | '#' :: '#' :: r => (.dropFront true, false, r)
  | '#' :: r => (.dropFront false, false, r)
  | '%' :: '%' :: r => (.dropEnd true, false, r)
  | '%' :: r => (.dropEnd false, false, r)
  | r => (if r.head? == some '}' then .value else .bad, false, r)

/-- The name of a parameter at the front of a text, and the rest. -/
def parameterName : Text → Text × Text
  | [] => ([], [])
  | c :: r =>
    if isNameStart c then (c :: r.takeWhile isNameChar, r.dropWhile isNameChar)
    else if c.isDigit then (c :: r.takeWhile Char.isDigit, r.dropWhile Char.isDigit)
    else if isSpecialParameter c then ([c], r)
    else ([], c :: r)

/-- The name, the operator and the rest of an expansion in braces. -/
def braced (s : Text) : Text × Operator × Bool × Text :=
  match s with
  | '#' :: c :: r =>
    let (name, rest) := parameterName (c :: r)
    if (c == '_' || c.isAlphanum || rest.head? == some '}') && !name.isEmpty then
      (name, if rest.head? == some '}' then .length else .bad, false, rest)
    else (['#'], operator (c :: r))
  | s =>
    let (name, rest) := parameterName s
    if name.isEmpty then (name, .bad, false, rest) else (name, operator rest)

/-- The lines of a document up to the line that ends it, and the text after that. -/
def documentLines (a : Announced) : Nat → Text → Text × Text
  | 0, s => ([], s)
  | fuel + 1, s =>
    let s := if a.stripsTabs then s.dropWhile (· == '\t') else s
    match cut? ['\n'] s with
    | some (line, rest) =>
      if line = a.ending then ([], rest)
      else
        let (body, rest) := documentLines a fuel rest
        (line ++ '\n' :: body, rest)
    | none => (if s = a.ending then [] else s, [])

/-- The characters of a word that ends a document: its quotes mean nothing but that the document
holds no expansions. -/
def endingOf (w : Word) : Text := w.flatMap fun p =>
  match p with
  | .plain s => s
  | .quoted s => s
  | .parameter _ name .. => '$' :: name
  | _ => []

end Reader

/-- How a list of commands ends. -/
inductive ListEnd where
  /-- At the end of the line. -/
  | line
  /-- At a token that ends lists, after one command at least. -/
  | body
  /-- At a token that ends lists. -/
  | token
  deriving Repr, DecidableEq

namespace Reader

mutual

/-- The parts of a word up to the end of its context, which is taken away. -/
def parts (fuel : Nat) (k : Context) : ReadM Word :=
  match fuel with
  | 0 => unexpected
  | fuel + 1 => do
    let s := (← get).rest
    match k, s with
    | .word, [] => return []
    | .document, [] => return []
    | .quotes, [] => raise .openQuote
    | .braces _, [] => raise .openBrace
    | .arithmetic _, [] => raise .openArithmetic
    | .quotes, '"' :: r => do advance [] r; return []
    | .braces _, '}' :: r => do advance [] r; return []
    | .arithmetic 0, ')' :: ')' :: r => do advance [] r; return []
    | .arithmetic d, '(' :: r => do
      advance [] r
      return .quoted ['('] :: (← parts fuel (.arithmetic (d + 1)))
    | .arithmetic d, ')' :: r => do
      advance [] r
      return .quoted [')'] :: (← parts fuel (.arithmetic (d - 1)))
    | k, '\\' :: '\n' :: r => do advance ['\n'] r; parts fuel k
    | k, ['\\'] => do
      advance [] []
      return .quoted ['\\'] :: (← parts fuel k)
    | k, '\\' :: c :: r => do
      advance [c] r
      let isEscape := match k with
        | .word => true
        | .braces false => true
        | .braces true => "\\`$\"\x7d".toList.contains c
        | .document => "\\`$".toList.contains c
        | _ => "\\`$\"".toList.contains c
      return .quoted (if isEscape then [c] else ['\\', c]) :: (← parts fuel k)
    | k, '\'' :: r =>
      if k.isQuoted then do
        advance [] r
        return Word.cons (k.text ['\'']) (← parts fuel k)
      else
        match cut? ['\''] r with
        | some (inside, rest) => do
          advance inside rest
          return .quoted inside :: (← parts fuel k)
        | none => do
          advance r []
          raise .openQuote
    | k, '"' :: r => do
      advance [] r
      if k.keepsQuotes then return Word.cons (.quoted ['"']) (← parts fuel k)
      else
        let inside ← parts fuel .quotes
        let isField := inside.length != 1 && inside.all Part.isAllParameters
        return (if isField then .quoted [] :: inside else inside) ++ (← parts fuel k)
    | k, '$' :: r => do
      advance [] r
      let p ← dollar fuel k
      return Word.cons p (← parts fuel k)
    | k, '`' :: r =>
      match untilBackquote k.isQuoted r with
      | none => do
        advance r []
        raise .openBackquote
      | some (script, rest) => do
        let before ← get
        let replaced := before.replaced.map fun a => ⟨a.name, 0, false⟩
        set { before with rest := script, line := 1, pushed := none, announced := [], replaced }
        let body ← list fuel .token
        modify fun after => { after with
          rest, pushed := none, announced := before.announced, replaced := before.replaced,
          line := before.line + r.count '\n' - rest.count '\n' }
        return .output k.isQuoted body :: (← parts fuel k)
    | .word, c :: r =>
      if endsWord c then return []
      else do
        let (run, rest) := (r.takeWhile (!isActive ·), r.dropWhile (!isActive ·))
        advance [] rest
        return Word.cons (.plain (c :: run)) (← parts fuel k)
    | k, c :: r => do
      let (run, rest) := (r.takeWhile (!isActive ·), r.dropWhile (!isActive ·))
      advance [c] rest
      return Word.cons (k.text (c :: run)) (← parts fuel k)

/-- The expansion after a dollar sign, or the sign itself if none follows it. -/
def dollar (fuel : Nat) (k : Context) : ReadM Part :=
  match fuel with
  | 0 => unexpected
  | fuel + 1 => do
    match (← get).rest with
    | '(' :: '(' :: r => do
      advance [] r
      return .arithmetic k.isQuoted (← parts fuel (.arithmetic 0))
    | '(' :: r => do
      advance [] r
      let body ← list fuel .token
      let t ← next fuel false .nothing
      if t.isSign ")" then return .output k.isQuoted body else missing ")"
    | '{' :: r => do
      let (name, op, nullCounts, rest) := braced r
      advance [] rest
      let inner := match op with
        | .dropFront _ => false
        | .dropEnd _ => false
        | _ => k.isQuoted
      return .parameter k.isQuoted name op nullCounts (← parts fuel (.braces inner))
    | c :: r =>
      if isNameStart c then do
        advance [] (r.dropWhile isNameChar)
        return .parameter k.isQuoted (c :: r.takeWhile isNameChar) .value false []
      else if isSpecialParameter c then do
        advance [] r
        return .parameter k.isQuoted [c] .value false []
      else return k.text ['$']
    | [] => return k.text ['$']

/-- The documents that were announced on the line that has ended. -/
def readDocuments (fuel : Nat) : ReadM Unit :=
  match fuel with
  | 0 => pure ()
  | fuel + 1 => do
    match (← get).announced with
    | [] => pure ()
    | a :: rest => do
      let before ← get
      let (body, after) := documentLines a (before.rest.length + 1) before.rest
      let content ← do
        if a.expands then
          set { before with rest := body, announced := [] }
          parts fuel .document
        else pure [.quoted body]
      modify fun r => { r with
        rest := after, announced := rest, documents := r.documents.set! a.index content,
        line := before.line + before.rest.count '\n' - after.count '\n' }
      readDocuments fuel

/-- The next token. -/
def token (fuel : Nat) : ReadM Token :=
  match fuel with
  | 0 => unexpected
  | fuel + 1 => do
    let (joined, s) := skipBlanks 0 (← get).rest
    modify fun r => { r with rest := s, line := r.line + joined }
    noteAliases
    match s with
    | [] => do
      readDocuments fuel
      return .eof
    | '\n' :: r => do
      advance ['\n'] r
      readDocuments fuel
      return .newline
    | s =>
      match oneOf? signs s, oneOf? redirectSigns s with
      | some (sign, rest), _ => do advance [] rest; return .sign sign
      | none, some (sign, rest) => do advance [] rest; return .redirect none sign
      | none, none => do
        let w ← parts fuel .word
        match w, oneOf? redirectSigns (← get).rest with
        | [.plain [d]], some (sign, rest) =>
          if d.isDigit then do
            advance [] rest
            return .redirect (some (d.toNat - '0'.toNat)) sign
          else return .word w
        | w, _ => return .word w

/-- The next token, the one that was put back if there is one. Newlines are skipped and reserved
words and aliases are recognised if that is asked for. -/
def next (fuel : Nat) (skipsNewlines : Bool) (search : Search) : ReadM Token :=
  match fuel with
  | 0 => unexpected
  | fuel + 1 => do
    let t ← match (← get).pushed with
      | some t => pure t
      | none => token fuel
    modify fun r => { r with pushed := none, last := t, lastWord := t.word?.getD r.lastWord }
    let r ← get
    let again := next fuel skipsNewlines (if r.goesOn then search.orAliases else search)
    match t with
    | .newline => if skipsNewlines then again else return t
    | .word w =>
      match w.bare? with
      | some s =>
        if search.findsKeywords && keywords.contains s then do
          set { r with last := .keyword s }
          return .keyword s
        else
          match if search.findsAliases || r.goesOn then r.alias? s else none with
          | some value => do
            replace s value
            again
          | none => return t
      | none => return t
    | t => return t

/-- A list of commands after those in `before`. -/
def listAfter (fuel : Nat) (e : ListEnd) (before : Option Command) : ReadM (Option Command) :=
  match fuel with
  | 0 => unexpected
  | fuel + 1 => do
    let t ← next fuel (e != .line) .commands
    match t with
    | .newline => return before
    | .eof => do
      pushBack
      return before
    | t => do
      pushBack
      if e == .token && t.endsList then return before
      else
        let c ← andOr fuel
        let t ← next fuel false .nothing
        let c := if t.isSign "&" then .background c else c
        let done := match before with
          | none => c
          | some b => .sequence b c
        let e' := if e == .body then .token else e
        match t with
        | .eof => do
          pushBack
          return some done
        | .newline => do
          pushBack
          listAfter fuel e' (some done)
        | t =>
          if t.isSign "&" || t.isSign ";" then listAfter fuel e' (some done)
          else if e == .line then unexpected
          else do
            pushBack
            return some done

/-- A list of commands. -/
def list (fuel : Nat) (e : ListEnd) : ReadM (Option Command) :=
  match fuel with
  | 0 => unexpected
  | fuel + 1 => listAfter fuel e none

/-- A list of at least one command; at the end of the script it may be empty, because no token
that has to follow it is there either. -/
def body (fuel : Nat) : ReadM Command :=
  match fuel with
  | 0 => unexpected
  | fuel + 1 => do
    let c ← listAfter fuel .body none
    return c.getD (.simple 0 [] [] [])

/-- Commands joined by signs that say whether the next one runs. -/
def andOr (fuel : Nat) : ReadM Command :=
  match fuel with
  | 0 => unexpected
  | fuel + 1 => do
    let first ← pipeline fuel
    andOrAfter fuel first

/-- More commands joined to the one before. -/
def andOrAfter (fuel : Nat) (before : Command) : ReadM Command :=
  match fuel with
  | 0 => unexpected
  | fuel + 1 => do
    let t ← next fuel false .nothing
    if t.isSign "&&" || t.isSign "||" then
      skipNewlines fuel
      let c ← pipeline fuel
      andOrAfter fuel (if t.isSign "&&" then .both before c else .either before c)
    else
      pushBack
      return before

/-- Go on to the next token that is no newline and that may be a reserved word. -/
def skipNewlines (fuel : Nat) : ReadM Unit :=
  match fuel with
  | 0 => unexpected
  | fuel + 1 => do
    let _ ← next fuel true .commands
    pushBack

/-- Commands joined by pipes, which may be negated. -/
def pipeline (fuel : Nat) : ReadM Command :=
  match fuel with
  | 0 => unexpected
  | fuel + 1 => do
    let t ← next fuel false .commands
    let negated := t.isKeyword "!"
    if negated then
      let _ ← next fuel false .commands
      pushBack
    else pushBack
    let first ← command fuel
    let cs ← pipedInto fuel
    let c := if cs.isEmpty then first else .pipeline (first :: cs)
    return if negated then .negation c else c

/-- The commands after a pipe. -/
def pipedInto (fuel : Nat) : ReadM (List Command) :=
  match fuel with
  | 0 => unexpected
  | fuel + 1 => do
    let t ← next fuel false .nothing
    if t.isSign "|" then
      skipNewlines fuel
      let c ← command fuel
      return c :: (← pipedInto fuel)
    else
      pushBack
      return []

/-- Take a reserved word or a sign that has to stand here. -/
def expect (fuel : Nat) (s : String) : ReadM Unit :=
  match fuel with
  | 0 => unexpected
  | fuel + 1 => do
    let t ← next fuel false .commands
    unless t.isKeyword s || t.isSign s do missing s

/-- One command, with its redirections. -/
def command (fuel : Nat) : ReadM Command :=
  match fuel with
  | 0 => unexpected
  | fuel + 1 => do
    let line := (← get).line
    let t ← next fuel false .commands
    match t with
    | .word _ => do
      pushBack
      simple fuel (← get).line [] [] []
    | .redirect .. => do
      pushBack
      simple fuel (← get).line [] [] []
    | .sign ['('] => do
      let c ← body fuel
      expect fuel ")"
      redirectedBy fuel line (.subshell line c)
    | .keyword k =>
      if k = "if".toList then do
        let c ← branch fuel
        expect fuel "fi"
        redirectedBy fuel line c
      else if k = "while".toList || k = "until".toList then do
        let test ← body fuel
        expect fuel "do"
        let inner ← body fuel
        expect fuel "done"
        redirectedBy fuel line (.loop (k == "until".toList) test inner)
      else if k = "for".toList then do
        let c ← each fuel line
        redirectedBy fuel line c
      else if k = "case".toList then do
        let w ← do
          match ← next fuel false .nothing with
          | .word w => pure w
          | _ => raise (.unexpected (← get).last.shown (some "word".toList))
        skipNewlines fuel
        expect fuel "in"
        let cs ← cases fuel
        redirectedBy fuel line (.choose line w cs)
      else if k = "\x7b".toList then do
        let c ← body fuel
        expect fuel "\x7d"
        redirectedBy fuel line c
      else unexpected
    | _ => unexpected

/-- A test with what follows its success and its failure. -/
def branch (fuel : Nat) : ReadM Command :=
  match fuel with
  | 0 => unexpected
  | fuel + 1 => do
    let test ← body fuel
    expect fuel "then"
    let yes ← body fuel
    let t ← next fuel false .commands
    if t.isKeyword "elif" then
      let no ← branch fuel
      return .branch test yes (some no)
    else if t.isKeyword "else" then
      let no ← body fuel
      return .branch test yes (some no)
    else
      pushBack
      return .branch test yes none

/-- A loop over words. -/
def each (fuel : Nat) (line : Nat) : ReadM Command :=
  match fuel with
  | 0 => unexpected
  | fuel + 1 => do
    let name ← do
      match ← next fuel false .nothing with
      | .word w =>
        match w.bare? with
        | some s => if isName s then pure s else raise .loopName
        | none => raise .loopName
      | _ => raise .loopName
    let t ← next fuel true .commands
    let words ← do
      if t.isKeyword "in" then
        let ws ← wordsUpTo fuel
        let last := (← get).last
        match last with
        | .newline => pure ws
        | last => if last.isSign ";" then pure ws else unexpected
      else
        unless t.isSign ";" do pushBack
        pure [[.parameter true ['@'] .value false []]]
    skipNewlines fuel
    expect fuel "do"
    let inner ← body fuel
    expect fuel "done"
    return .each line name words inner

/-- The words before any other token, which is taken too. -/
def wordsUpTo (fuel : Nat) : ReadM (List Word) :=
  match fuel with
  | 0 => unexpected
  | fuel + 1 => do
    match ← next fuel false .nothing with
    | .word w => return w :: (← wordsUpTo fuel)
    | _ => return []

/-- The cases of a choice. -/
def cases (fuel : Nat) : ReadM (List (List Word × Option Command)) :=
  match fuel with
  | 0 => unexpected
  | fuel + 1 => do
    let t ← next fuel true .keywords
    if t.isKeyword "esac" then return []
    else
      unless t.isSign "(" do pushBack
      let patterns ← patternsOf fuel
      let inner ← listAfter fuel .token none
      let t ← next fuel true .keywords
      if t.isKeyword "esac" then return [(patterns, inner)]
      else if t.isSign ";;" then return (patterns, inner) :: (← cases fuel)
      else missing ";;"

/-- The patterns of a case up to the bracket after them. Any token stands for a pattern: one that is
no word for the word before it. -/
def patternsOf (fuel : Nat) : ReadM (List Word) :=
  match fuel with
  | 0 => unexpected
  | fuel + 1 => do
    let _ ← next fuel false .nothing
    let w := (← get).lastWord
    let t ← next fuel false .nothing
    if t.isSign "|" then return w :: (← patternsOf fuel)
    else if t.isSign ")" then return [w]
    else missing ")"

/-- The target of a redirection. -/
def target (fuel : Nat) (descriptor : Option Nat) (sign : Text) : ReadM Redirect :=
  match fuel with
  | 0 => unexpected
  | fuel + 1 => do
    match ← next fuel false .nothing with
    | .word w =>
      let n := descriptor.getD (if sign.head? == some '<' then 0 else 1)
      if sign = ['<'] then return .mk n .read w
      else if sign = "<>".toList then return .mk n .readWrite w
      else if sign = ">>".toList then return .mk n .append w
      else if sign = ">|".toList then return .mk n .replace w
      else if sign = ">&".toList || sign = "<&".toList then return .mk n .copy w
      else if sign = "<<".toList || sign = "<<-".toList then
        let index := (← get).documents.size
        let a := Announced.mk index (endingOf w) (!w.hasQuotes) (sign == "<<-".toList)
        modify fun r => { r with
          documents := r.documents.push [], announced := r.announced ++ [a] }
        return .mk n (.document index) []
      else return .mk n .write w
    | _ => unexpected

/-- A command with the redirections that follow it. -/
def redirectedBy (fuel : Nat) (line : Nat) (c : Command) : ReadM Command :=
  match fuel with
  | 0 => unexpected
  | fuel + 1 => do
    let rs ← redirects fuel
    return if rs.isEmpty then c else .redirected line c rs

/-- Redirections up to any other token. -/
def redirects (fuel : Nat) : ReadM (List Redirect) :=
  match fuel with
  | 0 => unexpected
  | fuel + 1 => do
    match ← next fuel false .commands with
    | .redirect n sign => do
      let r ← target fuel n sign
      return r :: (← redirects fuel)
    | _ => do
      pushBack
      return []

/-- The assignments, words and redirections of a simple command after those that were read, or the
definition of a function. -/
def simple (fuel : Nat) (line : Nat) (assigns : List (Text × Word)) (words : List Word)
    (rs : List Redirect) : ReadM Command :=
  match fuel with
  | 0 => unexpected
  | fuel + 1 => do
    match ← next fuel false (if words.isEmpty then .aliases else .nothing) with
    | .word w =>
      match if words.isEmpty then assignment? w else none with
      | some a => simple fuel line (assigns ++ [a]) words rs
      | none => simple fuel line assigns (words ++ [w]) rs
    | .redirect n sign => do
      let r ← target fuel n sign
      simple fuel line assigns words (rs ++ [r])
    | .sign ['('] =>
      match assigns, words, rs with
      | [], [w], [] => do
        let t ← next fuel false .nothing
        unless t.isSign ")" do missing ")"
        let name := w.bare?.getD []
        if isName name && !specialNames.contains name then
          skipNewlines fuel
          let c ← command fuel
          return .define line name c
        else raise .functionName
      | _, _, _ => do
        pushBack
        return .simple line assigns words rs
    | _ => do
      pushBack
      return .simple line assigns words rs

end

/-- A text as a document that holds expansions. -/
def document (s : Text) : Except SyntaxError Word :=
  (parts (budget [] s) .document).run' { rest := s }

/-- The commands of the next line, and the script after it; nothing if the script has ended. -/
def line? (r : Reader) : Except SyntaxError (Option (Option Command × Reader)) :=
  match r.pushed with
  | some .eof => .ok none
  | _ =>
    match (list (budget r.aliases r.rest) .line).run r with
    | .ok (c, after) => .ok (some (c, after))
    | .error e => .error e

end Reader

end Localizer.Host.Shell
