import Localizer.Proofs.Dart.Declaration
import Localizer.Proofs.Dart.Exclusion
import Localizer.Proofs.Dart.Newline
import Localizer.Proofs.Edit.Relexing

/-!
# Literals of constant declarations

A declaration gives a constant its literal (`ConstDeclaration`). Behind complete declarations
(`Complete`) the mask shows its head as it is (`mask_buffer`), so that the last stretch of what comes
before and the head are tested together. Behind a semicolon only blanks are left of that stretch and the
literal is known to be constant; behind a closing brace the stretch is an earlier declaration, and the
literal is known to be constant only if that is one as well (`replace_declared`).
-/

namespace Localizer.Edit

open Text Dart

/-! ## Declarations -/

/-- The declaration of a constant whose value is a literal. -/
structure ConstDeclaration where
  /-- Whether it belongs to a class. -/
  isStatic : Bool := false
  /-- The type, if it is written. -/
  type : Option Text := none
  /-- The name of the constant. -/
  name : Text
  /-- What stands between the quotes. -/
  text : Text
  isName_type : ∀ t ∈ type, IsName t
  isName_name : IsName name
  plain : ∀ c ∈ text, ¬IsQuote c ∧ c ≠ '\\' ∧ c ≠ '$' ∧ c ≠ '\n'

namespace ConstDeclaration

/-- What stands before the literal. -/
def head (d : ConstDeclaration) : Text :=
  (if d.isStatic then "static ".toList else []) ++ "const ".toList ++
    (d.type.map (· ++ [' '])).getD [] ++ d.name ++ " = ".toList

/-- The literal. -/
def literal (d : ConstDeclaration) : Text := '\'' :: (d.text ++ ['\''])

/-- The declaration as it is written. -/
def written (d : ConstDeclaration) : Text := d.head ++ d.literal ++ [';']

/-- A buffer with the declaration on a line of its own at its end. -/
def buffer (d : ConstDeclaration) (front : Text) : Text := front ++ '\n' :: d.written

/-- The offset of the literal in that buffer. -/
def offset (d : ConstDeclaration) (front : Text) : Nat := (front ++ '\n' :: d.head).length

end ConstDeclaration

/-- A masked text of complete declarations: its brackets are balanced, and it ends in a semicolon or
a closing brace unless it is blank. -/
structure Complete (masked : Text) : Prop where
  balanced : Balanced masked
  ends : ∀ c ∈ (stripRight masked).getLast?, c = ';' ∨ c = '}'

instance (masked : Text) : Decidable (Complete masked) :=
  decidable_of_iff (Balanced masked ∧ ∀ c ∈ (stripRight masked).getLast?, c = ';' ∨ c = '}')
    ⟨fun ⟨a, b⟩ => ⟨a, b⟩, fun ⟨a, b⟩ => ⟨a, b⟩⟩

/-- Before a declaration of a constant a stretch is blank, or a declaration of a constant itself. -/
def StartsConst (b : Text) : Prop :=
  (∀ c ∈ b, isBlank c = true) ∨ (declarationConst? b).isSome = true

instance (b : Text) : Decidable (StartsConst b) := inferInstanceAs (Decidable (_ ∨ _))

/-! ## The head of a declaration -/

/-- A character that opens or closes nothing and ends nothing. -/
def Passive (c : Char) : Prop :=
  Calm c ∧ isOpener c = false ∧ isCloser c = false ∧ c ≠ ';'

instance : DecidablePred Passive := fun _ => inferInstanceAs (Decidable (_ ∧ _))

theorem passive_of_isName {s : Text} (h : IsName s) : ∀ c ∈ s, Passive c := by
  intro c hc
  have part : isNameStart c = true ∨ isNamePart c = true := by
    cases s with
    | nil => exact absurd h id
    | cons d s =>
      rcases List.mem_cons.1 hc with rfl | hc
      · exact .inl h.1
      · exact .inr (h.2 c hc)
  have other : ∀ d ∈ "()[]\x7b\x7d;".toList, isNameStart d = false ∧ isNamePart d = false := by
    decide +kernel
  have differs (d : Char) (hd : d ∈ "()[]\x7b\x7d;".toList) : (c == d) = false := by
    rw [beq_eq_false_iff_ne]
    rintro rfl
    obtain ⟨start, rest⟩ := other c hd
    rcases part with part | part
    · rw [start] at part
      contradiction
    · rw [rest] at part
      contradiction
  refine ⟨calm_of_isName h c hc, ?_, ?_, by simpa using differs ';' (by decide)⟩
  · rw [isOpener, differs '(' (by decide), differs '[' (by decide), differs '\x7b' (by decide)]
    rfl
  · rw [isCloser, differs ')' (by decide), differs ']' (by decide), differs '\x7d' (by decide)]
    rfl

namespace ConstDeclaration

variable (d : ConstDeclaration)

theorem passive_head : ∀ c ∈ d.head, Passive c := by
  have words : ∀ c ∈ "static ".toList ++ "const ".toList ++ " = ".toList, Passive c := by decide
  have static : ∀ c ∈ if d.isStatic then "static ".toList else [], Passive c := by
    split <;> decide
  have type : ∀ c ∈ (d.type.map (· ++ [' '])).getD [], Passive c := by
    cases written : d.type with
    | none => simp
    | some t =>
      have name := passive_of_isName (d.isName_type t written)
      intro c hc
      rcases List.mem_append.1 hc with hc | hc
      · exact name c hc
      · obtain rfl := List.mem_singleton.1 hc
        decide
  intro c hc
  rw [head] at hc
  simp only [List.mem_append] at hc words
  rcases hc with (((hc | hc) | hc) | hc) | hc
  · exact static c hc
  · exact words c (.inl (.inr hc))
  · exact type c hc
  · exact passive_of_isName d.isName_name c hc
  · exact words c (.inr hc)

theorem literal_ne : d.literal ≠ [] := by simp [literal]

theorem calm_head : ∀ c ∈ d.head, Calm c := fun c hc => (d.passive_head c hc).1

theorem count_written {q : Char} (quote : IsQuote q) : d.written.count q ≤ 2 := by
  have head : d.head.count q = 0 := List.count_eq_zero_of_not_mem fun mem => (d.calm_head q mem).1 quote
  have text : d.text.count q = 0 := List.count_eq_zero_of_not_mem fun mem => (d.plain q mem).1 quote
  rw [written, literal]
  simp only [List.count_append, List.count_cons, List.count_nil, head, text]
  rcases quote with rfl | rfl <;> decide

theorem not_infix_quotes (q : Char) (quote : IsQuote q) : ¬[q, q, q] <:+: d.written := by
  intro mem
  have count := mem.sublist.count_le q
  have := d.count_written quote
  simp at count
  omega

theorem not_infix_written (h : ¬"*/".toList <:+: d.text) : ¬['*', '/'] <:+: d.written := by
  have star {s : Text} (free : '*' ∉ s) : ¬['*', '/'] <:+: s := fun mem => free (mem.subset (by simp))
  intro mem
  have eq : d.written = d.head ++ '\'' :: (d.text ++ '\'' :: [';']) := by simp [written, literal]
  rw [eq] at mem
  rcases isInfix_append_cons (by decide) (by simp) mem with mem | mem
  · exact star (fun mem => (d.calm_head _ mem).2.2.1 rfl) mem
  · rcases isInfix_append_cons (by decide) (by simp) mem with mem | mem
    · exact h mem
    · exact star (by decide) mem

end ConstDeclaration

/-- The mask of calm text is the text. -/
theorem mask_calm {v : Text} (calm : ∀ c ∈ v, Calm c) (r : Text) : mask (v ++ r) = v ++ mask r := by
  induction v with
  | nil => rfl
  | cons c v ih =>
    obtain ⟨quote, slash, -⟩ := calm c (by simp)
    have first : lex (c :: (v ++ r)) = .code c :: lex (v ++ r) :=
      lex_code quote fun h => absurd h slash
    have rest := ih fun d hd => calm d (by simp [hd])
    rw [mask] at rest
    simp [mask, first, Lexeme.mask, rest]

section

variable {d : ConstDeclaration} {front : Text}

/-- A comment that is left open before the declaration is not closed in its text. -/
def CommentsApart (d : ConstDeclaration) (front : Text) : Prop :=
  ¬"/*".toList <:+: mask front ∨ ¬"*/".toList <:+: d.text

instance : Decidable (CommentsApart d front) := inferInstanceAs (Decidable (_ ∨ _))

theorem mask_buffer (comments : CommentsApart d front) : mask (d.buffer front) =
    mask front ++ '\n' :: d.head ++ mask (d.literal ++ [';']) := by
  have masked := mask_newline (p := front) (r := d.written) d.not_infix_quotes
    (comments.imp_right d.not_infix_written)
  rw [ConstDeclaration.buffer, masked, ConstDeclaration.written, List.append_assoc,
    mask_calm d.calm_head]
  simp

theorem isSome_declarationConst?_head {b : Text} (blank : ∀ c ∈ b, isBlank c = true) :
    (declarationConst? (b ++ '\n' :: d.head)).isSome = true := by
  obtain ⟨rest, head⟩ : ∃ rest, d.head =
      (if d.isStatic then "static ".toList else []) ++ ("const ".toList ++ rest) :=
    ⟨(d.type.map (· ++ [' '])).getD [] ++ (d.name ++ " = ".toList),
      by simp only [ConstDeclaration.head, List.append_assoc]⟩
  have letters : isBlank '\n' = true ∧ isBlank ' ' = true ∧ isBlank 's' = false ∧
      isBlank 'c' = false ∧ isWord ' ' = false := by decide +kernel
  obtain ⟨newline, space, static, const, boundary⟩ := letters
  have strip : stripLeft (b ++ '\n' :: d.head) = stripLeft d.head := by
    rw [stripLeft, List.dropWhile_append_of_pos blank, List.dropWhile_cons_of_pos newline, stripLeft]
  have word : startsWithWord "const".toList ("const ".toList ++ rest) = true := by
    simp [startsWithWord, atBoundary, boundary]
  have stand : stripLeft ("const ".toList ++ rest) = "const ".toList ++ rest :=
    stripLeft_of_head const _
  rw [isSome_declarationConst?, strip, head]
  cases d.isStatic with
  | false =>
    have without : withoutStatic ("const ".toList ++ rest) = "const ".toList ++ rest := by
      simp [withoutStatic, after?]
    rw [if_neg (by simp), List.nil_append, stand, without, word]
  | true =>
    have without : withoutStatic ("static ".toList ++ ("const ".toList ++ rest)) =
        "const ".toList ++ rest := by
      have found : after? "static".toList ("static ".toList ++ ("const ".toList ++ rest)) =
          some (' ' :: ("const ".toList ++ rest)) := by simp [after?]
      simp only [withoutStatic, found, space, if_true, stand]
    rw [if_pos rfl, show stripLeft ("static ".toList ++ ("const ".toList ++ rest)) = _ from
      stripLeft_of_head static _]
    exact (congrArg _ without).trans word

/-- A text that is not blank ends in some character and blanks behind it. -/
theorem exists_last_solid {b : Text} (solid : ¬∀ c ∈ b, isBlank c = true) :
    ∃ x c pad, b = x ++ c :: pad ∧ isBlank c = false ∧ ∀ d ∈ pad, isBlank d = true := by
  induction b with
  | nil => simp at solid
  | cons c b ih =>
    by_cases rest : ∀ d ∈ b, isBlank d = true
    · refine ⟨[], c, b, rfl, ?_, rest⟩
      rw [List.forall_mem_cons, and_iff_left rest] at solid
      simpa using solid
    · obtain ⟨x, d, pad, rfl, hd, blank⟩ := ih rest
      exact ⟨c :: x, d, pad, rfl, hd, blank⟩

theorem stripRight_append_cons {x pad : Text} {c : Char} (solid : isBlank c = false)
    (blank : ∀ d ∈ pad, isBlank d = true) : stripRight (x ++ c :: pad) = x ++ [c] := by
  have back : (x ++ c :: pad).reverse = pad.reverse ++ c :: x.reverse := by simp
  rw [stripRight, back, List.dropWhile_append_of_pos (by simpa using blank),
    List.dropWhile_cons_of_neg (by simp [solid])]
  simp

/-- A stretch of complete declarations that is not blank ends in a closing brace. -/
theorem Complete.brace {s b : Text} (complete : Complete s) (last : LastStretch s b)
    (solid : ¬∀ c ∈ b, isBlank c = true) :
    (stripRight s).getLast? = some '}' ∧ ∃ x pad, b = x ++ '}' :: pad := by
  obtain ⟨x, c, pad, rfl, hc, blank⟩ := exists_last_solid solid
  obtain ⟨a, hs⟩ := last.isSuffix
  rw [← List.append_assoc] at hs
  have ends : (stripRight s).getLast? = some c := by
    rw [hs, stripRight_append_cons hc blank]
    simp
  rcases complete.ends c ends with rfl | rfl
  · exact absurd (.of_forall fun d hd => isCloser_of_isBlank (blank d hd)) (last.inside x pad rfl)
  · exact ⟨ends, x, pad, rfl⟩

/-- Only blanks are left of complete declarations behind a semicolon. -/
theorem Complete.blank {s b : Text} (complete : Complete s) (last : LastStretch s b)
    (semicolon : ∀ c ∈ (stripRight s).getLast?, c = ';') : ∀ c ∈ b, isBlank c = true := by
  by_contra solid
  have brace := semicolon '}' (complete.brace last solid).1
  simp at brace

theorem isSome_declarationConst?_iff {s b : Text} (complete : Complete s) (last : LastStretch s b) :
    (declarationConst? (b ++ '\n' :: d.head)).isSome = true ↔ StartsConst b := by
  by_cases blank : ∀ c ∈ b, isBlank c = true
  · exact iff_of_true (isSome_declarationConst?_head blank) (.inl blank)
  · obtain ⟨-, x, pad, rfl⟩ := complete.brace last blank
    rw [StartsConst, or_iff_right blank, List.append_assoc, List.cons_append,
      isSome_declarationConst?_brace]

theorem isSome_enclosingConst_iff {b : Text} (complete : Complete (mask front))
    (last : LastStretch (mask front) b) (comments : CommentsApart d front) :
    (enclosingConst (mask (d.buffer front)) (d.offset front)).isSome = true ↔ StartsConst b := by
  have plain : ∀ c ∈ '\n' :: d.head, isOpener c = false ∧ isCloser c = false ∧ c ≠ ';' := by
    intro c hc
    rcases List.mem_cons.1 hc with rfl | hc
    · decide
    · exact (d.passive_head c hc).2
  have offset : d.offset front = (mask front ++ '\n' :: d.head).length := by
    rw [ConstDeclaration.offset, List.length_append, List.length_append, length_mask]
  rw [← isSome_declarationConst?_iff (d := d) complete last, mask_buffer comments, offset,
    isSome_enclosingConst_stretch complete.balanced last plain]

end

/-! ## Replacing the literal -/

/-- A replacement of the literal of a declaration. -/
def ConstDeclaration.replacement (d : ConstDeclaration) (front : Text) (context : Context) (key : Text)
    (arguments : List Text) : Replacement :=
  ⟨d.literal, d.offset front, context, key, arguments⟩

section

variable {d : ConstDeclaration} {front : Text}

theorem stands_replacement (context : Context) (key : Text) (arguments : List Text) :
    (d.replacement front context key arguments).Stands (d.buffer front) := by
  rw [Replacement.Stands, slice_eq_take_drop]
  have split : d.buffer front = (front ++ '\n' :: d.head) ++ (d.literal ++ [';']) := by
    simp [ConstDeclaration.buffer, ConstDeclaration.written]
  rw [split]
  simp only [ConstDeclaration.replacement, ConstDeclaration.offset, List.drop_left', List.take_left']

/-- No widget stands before the literal of a declaration. -/
theorem constTextHead?_buffer : constTextHead? (.of (d.buffer front) (d.offset front)) = none := by
  obtain ⟨first, head⟩ : ∃ first, d.head = first ++ " = ".toList := ⟨_, rfl⟩
  have split : d.buffer front = (front ++ '\n' :: d.head) ++ (d.literal ++ [';']) := by
    simp [ConstDeclaration.buffer, ConstDeclaration.written]
  have back : (Place.of (d.buffer front) (d.offset front)).back =
      " = ".toList ++ (front ++ '\n' :: first).reverse := by
    simp only [Place.of, split, ConstDeclaration.offset, List.take_left']
    simp [head]
  obtain ⟨rest, line⟩ : ∃ rest, (Place.of (d.buffer front) (d.offset front)).lineBack =
      ' ' :: '=' :: rest := by
    rw [Place.lineBack, back]
    exact ⟨_, rfl⟩
  have blank : isBlank ' ' = true ∧ isBlank '=' = false := by decide +kernel
  have strip : stripLeft (' ' :: '=' :: rest) = '=' :: rest := by
    rw [stripLeft, List.dropWhile_cons_of_pos blank.1, List.dropWhile_cons_of_neg (by simp [blank.2])]
  rw [constTextHead?, line, strip]
  rfl

end

section

variable {l : Localizations} {s : Text} {r : Replacement}

/-- What comes of a buffer when a single literal that stands in it is to be replaced: it is replaced if
it has an edit, and counted as constant otherwise. -/
theorem replace_alone (ne : r.literal ≠ []) (stands : r.Stands s) :
    let edit := editOf l 0 ⟨.of s r.offset, .of (mask s) r.offset, r⟩
    (edit = none → l.replace s [r] = .ok (.unchanged (Message.ofText s) 1)) ∧
      ∀ e, edit = some e → ∃ o, l.replace s [r] = .ok o ∧ o.replaced = 1 ∧ o.skippedConst = 0 := by
  intro edit
  have sites : sites s [r] = [⟨.of s r.offset, .of (mask s) r.offset, r⟩] :=
    sites_of_ordered s (List.pairwise_singleton _ _)
  have here : (Place.of s r.offset).rest.take r.literal.length = r.literal ∧ 0 ≤ r.offset :=
    ⟨(slice_eq_take_drop s r).symm.trans stands, Nat.zero_le _⟩
  have some : ∀ r' ∈ [r], r'.literal ≠ [] := by simpa using ne
  obtain ⟨p, edits, count, replaced⟩ := replace_eq_ok l s some
  rw [grantedIn, sites, granted, if_pos here] at edits
  rw [sites, skipped, if_pos here] at count
  constructor
  · intro none
    rw [show editOf l 0 ⟨.of s r.offset, .of (mask s) r.offset, r⟩ = _ from none] at edits count
    rw [replaced, if_pos (by rw [edits]; rfl), count]
    rfl
  · intro e some
    rw [show editOf l 0 ⟨.of s r.offset, .of (mask s) r.offset, r⟩ = _ from some] at edits count
    refine ⟨_, replaced, ?_⟩
    rw [if_neg (by rw [edits]; simp), wire, edits, count]
    exact ⟨rfl, rfl⟩

/-- A literal that nothing makes constant is replaced. -/
theorem replace_alone_of_free (ne : r.literal ≠ []) (stands : r.Stands s)
    (free : enclosingConst (mask s) r.offset = none) :
    ∃ o, l.replace s [r] = .ok o ∧ o.replaced = 1 ∧ o.skippedConst = 0 := by
  refine (replace_alone ne stands).2 ⟨r.offset, r.stop, l.accessor r.key r.arguments⟩ ?_
  have free : constBefore? (Place.of (mask s) r.offset).back = none := free
  simp only [editOf, free, Replacement.stop]

/-- A literal that something makes constant stays, when no widget stands before it. -/
theorem replace_alone_of_constant (ne : r.literal ≠ []) (stands : r.Stands s) {found : Nat}
    (constant : enclosingConst (mask s) r.offset = some found)
    (bare : constTextHead? (.of s r.offset) = none) :
    l.replace s [r] = .ok (.unchanged (Message.ofText s) 1) := by
  refine (replace_alone ne stands).1 ?_
  have constant : constBefore? (Place.of (mask s) r.offset).back = some found := constant
  simp only [editOf, constant, bare, ite_self]

end

/-- **A literal that is the value of a constant declaration** stays, and is counted as constant, if the
last stretch of the complete declarations before it is blank, as it is at the start of a buffer and
behind a semicolon. Behind a closing brace the stretch is an earlier declaration, and the literal stays
only if that is one of a constant; otherwise nothing is found that makes it constant, and it is
replaced. -/
theorem replace_declared (d : ConstDeclaration) (front : Text) (complete : Complete (mask front))
    (comments : CommentsApart d front) :
    ∃ b, LastStretch (mask front) b ∧
      ((∀ c ∈ (stripRight (mask front)).getLast?, c = ';') → StartsConst b) ∧
      (StartsConst b →
        (∃ found, enclosingConstAt (mask (d.buffer front)) (d.offset front) = .ok (some found)) ∧
        ∀ (l : Localizations) (context : Context) (key : Text) (arguments : List Text),
          l.replace (d.buffer front) [d.replacement front context key arguments] =
            .ok (.unchanged (Message.ofText (d.buffer front)) 1)) ∧
      (¬StartsConst b →
        enclosingConstAt (mask (d.buffer front)) (d.offset front) = .ok none ∧
        ∀ (l : Localizations) (context : Context) (key : Text) (arguments : List Text),
          ∃ o, l.replace (d.buffer front) [d.replacement front context key arguments] = .ok o ∧
            o.replaced = 1 ∧ o.skippedConst = 0) := by
  obtain ⟨b, last⟩ := exists_lastStretch complete.balanced.keepsOpen
  have known := isSome_enclosingConst_iff complete last comments
  have inside : ¬(mask (d.buffer front)).length < d.offset front := by
    simp [length_mask, ConstDeclaration.buffer, ConstDeclaration.offset, ConstDeclaration.written]
  refine ⟨b, last, fun semicolon => .inl (complete.blank last semicolon), fun constant => ?_,
    fun constant => ?_⟩
  · obtain ⟨found, hfound⟩ := Option.isSome_iff_exists.1 (known.2 constant)
    refine ⟨⟨found, by rw [enclosingConstAt, if_neg inside, hfound]⟩, fun l context key arguments => ?_⟩
    exact replace_alone_of_constant d.literal_ne (stands_replacement context key arguments) hfound
      constTextHead?_buffer
  · have free : enclosingConst (mask (d.buffer front)) (d.offset front) = none := by
      rw [← Option.not_isSome_iff_eq_none]
      exact fun found => constant (known.1 found)
    refine ⟨by rw [enclosingConstAt, if_neg inside, free], fun l context key arguments => ?_⟩
    exact replace_alone_of_free d.literal_ne (stands_replacement context key arguments) free

/-- A constant with a type. -/
def greeting : ConstDeclaration :=
  { type := some "String".toList
    name := "greeting".toList
    text := "Hello".toList
    isName_type := by decide
    isName_name := by decide
    plain := by decide }

/-- Declarations that may come before it, the last of them with a semicolon. -/
def earlier : Text :=
  "import 'a.dart';\nclass A \x7b f() => g(1); \x7d // (\nfinal a = [g('\x7d'), 1];".toList

theorem replace_declared_greeting :
    Complete (mask earlier) ∧ CommentsApart greeting earlier ∧
      (∃ found, enclosingConstAt (mask (greeting.buffer earlier)) (greeting.offset earlier) =
        .ok (some found)) ∧
      Localizations.replace ⟨"L".toList, none⟩ (greeting.buffer earlier)
          [greeting.replacement earlier .general "hello".toList []] =
        .ok (.unchanged (Message.ofText (greeting.buffer earlier)) 1) := by
  have complete : Complete (mask earlier) := by decide +kernel
  have comments : CommentsApart greeting earlier := by decide +kernel
  obtain ⟨b, -, semicolon, constant, -⟩ := replace_declared greeting earlier complete comments
  obtain ⟨found, stays⟩ := constant (semicolon (by decide +kernel))
  exact ⟨complete, comments, found, stays _ _ _ _⟩

/-- A class. -/
def emptyClass : Text := "class A \x7b\x7d".toList

/-- Behind a class the declaration is not seen, and the literal is replaced. -/
theorem declaration_behind_class :
    Complete (mask emptyClass) ∧ CommentsApart greeting emptyClass ∧
      enclosingConstAt (mask (greeting.buffer emptyClass)) (greeting.offset emptyClass) = .ok none ∧
      ∃ o, Localizations.replace ⟨"L".toList, none⟩ (greeting.buffer emptyClass)
          [greeting.replacement emptyClass .general "hello".toList []] = .ok o ∧
        o.replaced = 1 ∧ o.skippedConst = 0 := by
  have free : enclosingConst (mask (greeting.buffer emptyClass)) (greeting.offset emptyClass) = none := by
    decide +kernel
  refine ⟨by decide +kernel, by decide +kernel, by decide +kernel, ?_⟩
  exact replace_alone_of_free greeting.literal_ne (stands_replacement _ _ _) free

end Localizer.Edit
