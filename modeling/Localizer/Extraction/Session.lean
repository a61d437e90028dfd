import Localizer.Edit.Replacement
import Localizer.Log.Record
import Localizer.Message.Eligibility
import Localizer.Message.Escape
import Localizer.Resource.Key

/-!
# Extracting from one buffer

A session holds the table and the keys of one extraction. Each buffer that goes through it adds
its literals: those that the filter keeps and whose variables are plain identifiers. An escape
that names no code point stops the buffer; what was recorded before stays, and the key of the
literal with the bad escape has been given out.
-/

namespace Localizer.Extraction

open Text Dart Message Resource Edit Log

/-- The state of an extraction. -/
structure Session where
  table : Table := {}
  keys : Keys := {}
  deriving Repr, DecidableEq

/-- Why a buffer was not finished. -/
inductive SourceError where
  | escape (e : EscapeError)
  | outOfRange (e : OutOfRange)
  deriving Repr, DecidableEq

/-- The logger of the extraction. -/
def logger : Text := loggerOf "orchestrator".toList

/-- A record of the extraction. -/
def report (level : Level) (message : Message) : Record := { level, logger, message }

/-- The entry of a literal's template. -/
def entryOf (key : Text) (t : Template) : Except EscapeError Entry := do
  return {
    key
    value := ← unescape t.text
    description := describe t.names
    placeholders := Table.placeholders? (t.names.map Placeholder.ofVariable) }

/-- A literal and its key, ready to be replaced. -/
def replacementOf (l : Literal) (key : Text) (t : Template) : Replacement :=
  { literal := l.text, offset := l.offset, context := l.context, key, arguments := t.names }

/-- The record of a literal that is passed over because of its variables. -/
def notPlain (l : Literal) : Record :=
  report .debug
    (ofText ("Skipping ".toList ++ l.text ++ ": interpolation is not a plain identifier".toList))

/-- Record the literals of a buffer: the session after that, the records, and the replacements
unless an escape is bad. -/
def collect (f : Filter) (s : Session) :
    List Literal → Session × List Record × Except EscapeError (List Replacement)
  | [] => (s, [], .ok [])
  | l :: ls =>
    if f.ignores l.inner then collect f s ls
    else
      let t := Template.of l.inner
      if t.isSimple then
        let (key, keys) := s.keys.generate s.table l.inner
        match entryOf key t with
        | .error e => ({ s with keys }, [], .error e)
        | .ok entry =>
          let (s', records, rs) := collect f ⟨s.table.record entry, keys⟩ ls
          (s', records, rs.map (replacementOf l key t :: ·))
      else
        let (s', records, rs) := collect f s ls
        (s', notPlain l :: records, rs)

/-- Put one buffer through a session, and replace its literals if asked to. -/
def processSource (w : Windows) (f : Filter) (target : Option Localizations) (s : Session)
    (content : Text) : Session × List Record × Except SourceError Outcome :=
  let (s', records, rs) := collect f s (scan w content)
  let outcome := match rs, target with
    | .error e, _ => .error (.escape e)
    | .ok _, none => .ok (.unchanged (ofText content) 0)
    | .ok [], some _ => .ok (.unchanged (ofText content) 0)
    | .ok rs, some l => (l.replace content rs).mapError .outOfRange
  (s', records, outcome)

end Localizer.Extraction
