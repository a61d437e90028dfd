import Localizer.Dart.AppRoot
import Localizer.Text.CodePoint

/-!
# Wiring

A source that calls the localizations needs their import, and the app root needs to know them.
`ensureImport` puts the import after the last import directive of a buffer, or at its top, and
`ensureDelegates` puts two properties behind the parenthesis of the first app root call. Neither
does anything when the buffer has what it would add. The place is found in the buffer as it is
shown, and what is added may hold any code point.
-/

namespace Localizer.Edit

open Text Dart

/-! ## The import -/

/-- Whether a line starts an import directive. -/
def isImportLine (line : Text) : Bool :=
  match after? "import".toList (stripLeft line) with
  | some (c :: _) => isBlank c
  | _ => false

/-- How many of the lines come up to the end of the last import directive. A directive goes on to
the first line with a semicolon, or to the last line; `inside` holds within one, `count` lines have
been read, and `last` of them come up to the end of the last directive so far. -/
def importEnd (inside : Bool) (count last : Nat) : List Text → Nat
  | [] => if inside then count else last
  | line :: rest =>
    if inside || isImportLine line then
      if line.contains ';' then importEnd false (count + 1) (count + 1) rest
      else importEnd true (count + 1) last rest
    else importEnd false (count + 1) last rest

/-- The buffer with the statement after its last import directive, or at the top with an empty line
after it; the buffer itself if the statement is in it or is empty. -/
def ensureImport (statement s : Message) : Message :=
  if statement.isEmpty || occursIn statement s then s
  else
    let ls := s.lines
    match importEnd false 0 0 (ls.map Message.view) with
    | 0 => Message.unlines (statement :: [] :: ls)
    | n => Message.unlines (ls.take n ++ statement :: ls.drop n)

/-! ## The app root -/

/-- The properties by which an app root knows its localizations. -/
def delegateMarks : List Text := ["localizationsDelegates:".toList, "supportedLocales:".toList]

/-- The two properties for a class, each on a line of its own. -/
def delegates (className : Message) (indent : Text) : Message :=
  '\n' :: indent ++ "localizationsDelegates: ".toList ++ className ++
    ".localizationsDelegates,".toList ++
  '\n' :: indent ++ "supportedLocales: ".toList ++ className ++ ".supportedLocales,".toList

/-- The buffer with the two properties behind the parenthesis of its first app root call, indented
by two more spaces than the line of the call; the buffer itself if it has one of them or no app
root. -/
def ensureDelegates (className s : Message) : Message :=
  if delegateMarks.any (occursIn · s.view) then s
  else match appRoot? s.view with
    | none => s
    | some (before, head, _) =>
      let line := (before.reverse.takeWhile (· != '\n')).reverse
      let place := before.length + head.length
      s.take place ++ delegates className (indentation line ++ [' ', ' ']) ++ s.drop place

/-! ## Part files -/

/-- Whether a text starts, after blanks, with the words that make a file a part of another. -/
def startsPartOf (s : Text) : Bool :=
  match after? "part".toList (stripLeft s) with
  | some (c :: r) => isBlank c && startsWithWord "of".toList (stripLeft r)
  | _ => false

/-- Whether some line of a buffer, from the start of a line on, starts that way. -/
def isPartFile (s : Text) : Bool := startsPartOf s || go s
where
  /-- The same for the lines after the first. -/
  go : Text → Bool
    | [] => false
    | c :: r => (c == '\n' && startsPartOf r) || go r

end Localizer.Edit
