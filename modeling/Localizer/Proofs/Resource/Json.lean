import Localizer.Resource.Arb
import Mathlib.Data.List.Basic

/-!
# Reading the resource file

A reader of JSON for the values that resource files hold: texts, lists and objects. It is written
from the grammar of JSON and knows nothing of how the file is laid out. The text of a document is
read back as the document (`read_render`); the reader's steps are bounded by the length of the text,
and the lemmas say that a text of that length is enough for it (`Reads`).
-/

namespace Localizer.Resource

open Text Message

/-- A value of JSON: a text, a list or an object. -/
inductive Json where
  | text (m : Message)
  | list (items : List Json)
  | object (members : List (Message × Json))

namespace Json

/-! ## The reader -/

/-- The blanks between the parts of a value. -/
def isGap (p : CodePoint) : Bool :=
  p == .ofChar ' ' || p == .ofChar '\n' || p == .ofChar '\r' || p == .ofChar '\t'

/-- What follows a character, after blanks. -/
def expect (c : Char) (m : Message) : Option Message :=
  match m.dropWhile isGap with
  | [] => none
  | p :: r => if p = .ofChar c then some r else none

/-- The code point that a letter after a backslash stands for. -/
def escaped? (p : CodePoint) : Option CodePoint :=
  [('"', '"'), ('\\', '\\'), ('/', '/'), ('b', '\x08'), ('f', '\x0c'), ('n', '\n'), ('r', '\r'),
    ('t', '\t')].findSome? fun e => if p = .ofChar e.1 then some (.ofChar e.2) else none

/-- The value of a hexadecimal digit. -/
def hexDigit? (p : CodePoint) : Option Nat :=
  let n := p.val
  if 0x30 ≤ n ∧ n ≤ 0x39 then some (n - 0x30)
  else if 0x41 ≤ n ∧ n ≤ 0x46 then some (n - 0x37)
  else if 0x61 ≤ n ∧ n ≤ 0x66 then some (n - 0x57)
  else none

/-- The code point that four hexadecimal digits name. -/
def hexFour? (a b c d : CodePoint) : Option CodePoint := do
  return Fin.ofNat 0x110000 ((((← hexDigit? a) * 16 + (← hexDigit? b)) * 16 + (← hexDigit? c)) * 16 +
    (← hexDigit? d))

/-- A code point before a text that was read. -/
def push (p : CodePoint) (x : Message × Message) : Message × Message := (p :: x.1, x.2)

/-- A text after its opening quote, and what follows its closing quote. -/
def readBody : Message → Option (Message × Message)
  | [] => none
  | p :: r =>
    if p = .ofChar '"' then some ([], r)
    else if p = .ofChar '\\' then
      match r with
      | [] => none
      | e :: r =>
        if e = .ofChar 'u' then
          match r with
          | a :: b :: c :: d :: r => (hexFour? a b c d).bind fun q => (readBody r).map (push q)
          | _ => none
        else (escaped? e).bind fun q => (readBody r).map (push q)
    else if p.val < 0x20 then none
    else (readBody r).map (push p)

mutual

/-- A value, and what follows it. `fuel` bounds the number of values and members. -/
def readValue : (fuel : Nat) → Message → Option (Json × Message)
  | 0, _ => none
  | fuel + 1, m =>
    match m.dropWhile isGap with
    | [] => none
    | p :: r =>
      if p = .ofChar '"' then (readBody r).map fun x => (.text x.1, x.2)
      else if p = .ofChar '{' then
        match expect '}' r with
        | some r => some (.object [], r)
        | none => (readMembers fuel r).map fun x => (.object x.1, x.2)
      else if p = .ofChar '[' then
        match expect ']' r with
        | some r => some (.list [], r)
        | none => (readItems fuel r).map fun x => (.list x.1, x.2)
      else none

/-- The members of an object up to its closing brace. -/
def readMembers : (fuel : Nat) → Message → Option (List (Message × Json) × Message)
  | 0, _ => none
  | fuel + 1, m => do
    let (name, r) ← readBody (← expect '"' m)
    let (value, r) ← readValue fuel (← expect ':' r)
    match expect ',' r with
    | some r =>
      let (members, r) ← readMembers fuel r
      return ((name, value) :: members, r)
    | none => return ([(name, value)], ← expect '}' r)

/-- The items of a list up to its closing bracket. -/
def readItems : (fuel : Nat) → Message → Option (List Json × Message)
  | 0, _ => none
  | fuel + 1, m => do
    let (value, r) ← readValue fuel m
    match expect ',' r with
    | some r =>
      let (items, r) ← readItems fuel r
      return (value :: items, r)
    | none => return ([value], ← expect ']' r)

end

/-- The value that a message is, with blanks around it. -/
def read (m : Message) : Option Json := do
  let (value, r) ← readValue m.length m
  if r.all isGap then return value else none

/-! ## Texts -/

/-- Whether a message is an escape that stands for a code point. -/
def spells (p : CodePoint) : Message → Bool
  | [x, e] => x == .ofChar '\\' && e != .ofChar 'u' && escaped? e == some p
  | [x, e, a, b, c, d] => x == .ofChar '\\' && e == .ofChar 'u' && hexFour? a b c d == some p
  | _ => false

theorem readBody_of_spells {p : CodePoint} {escape : Message} (h : spells p escape = true)
    (m : Message) : readBody (escape ++ m) = (readBody m).map (push p) := by
  have apart : CodePoint.ofChar '\\' ≠ .ofChar '"' := by decide
  unfold spells at h
  split at h
  next x e =>
    simp only [Bool.and_eq_true, beq_iff_eq, bne_iff_ne] at h
    obtain ⟨⟨rfl, letter⟩, value⟩ := h
    rw [readBody.eq_def]
    simp [apart, letter, value]
  next x e a b c d =>
    simp only [Bool.and_eq_true, beq_iff_eq] at h
    obtain ⟨⟨rfl, rfl⟩, value⟩ := h
    rw [readBody.eq_def]
    simp [apart, value]
  next => simp at h

/-- Control characters are written as escapes. -/
theorem spells_control :
    ∀ n : Fin 0x20,
      spells (n.castLE (by decide)) (Arb.quoteCodePoint (n.castLE (by decide))) = true := by
  decide +kernel

/-- A code point that is written inside quotes is read back. -/
theorem readBody_quoteCodePoint (p : CodePoint) (m : Message) :
    readBody (Arb.quoteCodePoint p ++ m) = (readBody m).map (push p) := by
  by_cases control : p.val < 0x20
  · exact readBody_of_spells (spells_control ⟨p.val, control⟩) m
  · by_cases quote : p = .ofChar '"'
    · exact readBody_of_spells (by rw [quote]; decide) m
    · by_cases backslash : p = .ofChar '\\'
      · exact readBody_of_spells (by rw [backslash]; decide) m
      · have plain : Arb.quoteCodePoint p = [p] := by
          have val (c : Char) (h : p ≠ .ofChar c) : p.val ≠ c.toNat := fun eq => h (Fin.ext eq)
          have noQuote := val _ quote
          have noBackslash := val _ backslash
          unfold Arb.quoteCodePoint
          split
          all_goals first | exact if_neg control | simp_all
        rw [plain, readBody.eq_def]
        simp [quote, backslash, control]

/-- A message in quotes is read back. -/
theorem readBody_quoted (m rest : Message) :
    readBody (m.flatMap Arb.quoteCodePoint ++ (Message.ofText ['"'] ++ rest)) = some (m, rest) := by
  induction m with
  | nil =>
    rw [readBody.eq_def]
    rfl
  | cons p m ih =>
    rw [List.flatMap_cons, List.append_assoc, readBody_quoteCodePoint, ih]
    rfl

/-! ## Values -/

/-- A text that is read as a value, whatever follows it. -/
def Reads (m : Message) (v : Json) : Prop :=
  ∀ (fuel : Nat) (rest : Message), m.length ≤ fuel → readValue fuel (m ++ rest) = some (v, rest)

theorem reads_quoted (m : Message) : Reads (Arb.quoted m) (.text m) := by
  intro fuel rest enough
  obtain ⟨fuel, rfl⟩ : ∃ n, fuel = n + 1 := by
    refine Nat.exists_eq_add_one.2 (Nat.lt_of_lt_of_le ?_ enough)
    simp [Arb.quoted, ofText]
  have body := readBody_quoted m rest
  have gap : isGap (.ofChar '"') = false := by decide
  simp only [Arb.quoted, List.append_assoc]
  rw [show ofText ['"'] ++ (m.flatMap Arb.quoteCodePoint ++ (ofText ['"'] ++ rest)) =
    .ofChar '"' :: (m.flatMap Arb.quoteCodePoint ++ (ofText ['"'] ++ rest)) from rfl]
  simp [readValue, gap, body]

theorem expect_append {gap : Message} (h : ∀ p ∈ gap, isGap p = true) (c : Char) (m : Message) :
    expect c (gap ++ m) = expect c m := by
  simp only [expect, List.dropWhile_append_of_pos h]

theorem expect_cons {c : Char} (h : isGap (.ofChar c) = false) (m : Message) :
    expect c (.ofChar c :: m) = some m := by
  simp [expect, h]

theorem expect_other {c d : Char} (h : isGap (.ofChar d) = false)
    (apart : CodePoint.ofChar d ≠ .ofChar c) (m : Message) : expect c (.ofChar d :: m) = none := by
  simp [expect, h, apart]

theorem readValue_append {gap : Message} (h : ∀ p ∈ gap, isGap p = true) (fuel : Nat)
    (m : Message) : readValue fuel (gap ++ m) = readValue fuel m := by
  cases fuel with
  | zero => rfl
  | succ fuel => simp only [readValue, List.dropWhile_append_of_pos h]

theorem readMembers_append {gap : Message} (h : ∀ p ∈ gap, isGap p = true) (fuel : Nat)
    (m : Message) : readMembers fuel (gap ++ m) = readMembers fuel m := by
  cases fuel with
  | zero => rfl
  | succ fuel => simp only [readMembers, expect_append h]

theorem isGap_ofText {s : Text} (h : ∀ c ∈ s, c = ' ' ∨ c = '\n') :
    ∀ p ∈ Message.ofText s, isGap p = true := by
  intro p hp
  obtain ⟨c, hc, rfl⟩ := List.mem_map.1 hp
  rcases h c hc with rfl | rfl <;> decide

theorem expect_quoted (m rest : Message) :
    (expect '"' (Arb.quoted m ++ rest)).bind readBody = some (m, rest) := by
  have eq : Arb.quoted m ++ rest =
      .ofChar '"' :: (m.flatMap Arb.quoteCodePoint ++ (ofText ['"'] ++ rest)) := by
    simp [Arb.quoted, ofText]
  rw [eq, expect_cons (by decide)]
  exact readBody_quoted m rest

/-- The first member of an object is read, and what follows it decides how to go on. -/
theorem readMembers_row {pad : Text} (blank : ∀ c ∈ pad, c = ' ' ∨ c = '\n') (name : Message)
    {text : Message} {v : Json} (h : Reads text v) {fuel : Nat} (enough : text.length ≤ fuel)
    (rest : Message) :
    readMembers (fuel + 1)
        (ofText pad ++ (Arb.quoted name ++ (ofText ": ".toList ++ (text ++ rest)))) =
      match expect ',' rest with
      | some r => (readMembers fuel r).map fun x => ((name, v) :: x.1, x.2)
      | none => (expect '}' rest).map fun r => ([(name, v)], r) := by
  have colon : expect ':' (ofText ": ".toList ++ (text ++ rest)) =
      some (ofText [' '] ++ (text ++ rest)) := expect_cons (by decide) _
  have value : readValue fuel (ofText [' '] ++ (text ++ rest)) = some (v, rest) := by
    rw [readValue_append (isGap_ofText (by simp))]
    exact h fuel rest enough
  have first := expect_quoted name (ofText ": ".toList ++ (text ++ rest))
  rw [readMembers_append (isGap_ofText blank)]
  obtain ⟨body, hbody, hname⟩ := Option.bind_eq_some_iff.1 first
  simp only [readMembers, hbody, hname, colon, value, Option.bind_eq_bind, Option.bind_some,
    Option.pure_def]
  cases expect ',' rest with
  | none => exact Option.map_eq_bind.symm
  | some r => exact Option.map_eq_bind.symm

/-- A member as it is written: its name, its text, and the value that the text is read as. -/
structure Row where
  name : Text
  text : Message
  value : Json

/-- The line of a member of an object. -/
def Row.line (pad : Text) (x : Row) : Message :=
  ofText pad ++ (Arb.quoted (ofText x.name) ++ (ofText ": ".toList ++ x.text))

/-- The members of an object are read up to its closing brace. -/
theorem readMembers_rows {pad : Text} (blank : ∀ c ∈ pad, c = ' ' ∨ c = '\n') {tail : Text}
    (blank' : ∀ c ∈ tail, c = ' ' ∨ c = '\n') {rows : List Row} (ne : rows ≠ [])
    (reads : ∀ x ∈ rows, Reads x.text x.value) {fuel : Nat}
    (enough : ((ofText [',', '\n']).intercalate (rows.map (Row.line pad))).length ≤ fuel)
    (rest : Message) :
    readMembers fuel ((ofText [',', '\n']).intercalate (rows.map (Row.line pad)) ++
        (ofText tail ++ .ofChar '}' :: rest)) =
      some (rows.map fun x => (ofText x.name, x.value), rest) := by
  induction rows generalizing fuel with
  | nil => exact absurd rfl ne
  | cons x rows ih =>
    have long : x.text.length < (x.line pad).length := by
      simp [Row.line, ofText]
      omega
    have read := reads x (by simp)
    cases rows with
    | nil =>
      simp only [List.map_cons, List.map_nil, List.intercalate_singleton] at enough ⊢
      obtain ⟨fuel, rfl⟩ : ∃ n, fuel = n + 1 := Nat.exists_eq_add_one.2 (by omega)
      have closes : expect ',' (ofText tail ++ .ofChar '}' :: rest) = none := by
        rw [expect_append (isGap_ofText blank'), expect_other (by decide) (by decide)]
      have ends : expect '}' (ofText tail ++ .ofChar '}' :: rest) = some rest := by
        rw [expect_append (isGap_ofText blank'), expect_cons (by decide)]
      rw [Row.line]
      simp only [List.append_assoc]
      rw [readMembers_row blank _ read (by omega), closes, ends]
      rfl
    | cons y rows =>
      rw [List.map_cons, List.intercalate_cons_of_ne_nil (by simp)] at enough ⊢
      generalize (ofText [',', '\n']).intercalate ((y :: rows).map (Row.line pad)) = more at *
      simp only [List.length_append] at enough
      obtain ⟨fuel, rfl⟩ : ∃ n, fuel = n + 1 := Nat.exists_eq_add_one.2 (by omega)
      have goes : expect ',' (ofText [',', '\n'] ++ (more ++ (ofText tail ++ .ofChar '}' :: rest))) =
          some (ofText ['\n'] ++ (more ++ (ofText tail ++ .ofChar '}' :: rest))) :=
        expect_cons (by decide) _
      have later : readMembers fuel (more ++ (ofText tail ++ .ofChar '}' :: rest)) =
          some ((y :: rows).map fun x => (ofText x.name, x.value), rest) :=
        ih (by simp) (fun z hz => reads z (List.mem_cons_of_mem _ hz)) (by omega)
      rw [Row.line]
      simp only [List.append_assoc]
      rw [readMembers_row blank _ read (by omega), goes]
      dsimp only
      rw [readMembers_append (isGap_ofText (by simp)), later]
      rfl

/-- The lines of the members of an object. -/
def rowLines (depth : Nat) (rows : List Row) : Message :=
  (ofText [',', '\n']).intercalate (rows.map (Row.line (List.replicate (2 * (depth + 1)) ' ')))

theorem object_eq {depth : Nat} {rows : List Row} (ne : rows ≠ []) :
    Arb.object depth (rows.map fun x => (x.name, x.text)) =
      .ofChar '{' :: (ofText ['\n'] ++ (rowLines depth rows ++
        (ofText ('\n' :: List.replicate (2 * depth) ' ') ++ [.ofChar '}']))) := by
  have line (x : Row) : ofText (List.replicate (2 * (depth + 1)) ' ') ++
      Arb.quoted (ofText x.name) ++ ofText ": ".toList ++ x.text =
        x.line (List.replicate (2 * (depth + 1)) ' ') := by
    simp only [Row.line, List.append_assoc]
  have lines : (rows.map fun x => (x.name, x.text)).map (fun m : Text × Message =>
      ofText (List.replicate (2 * (depth + 1)) ' ') ++ Arb.quoted (ofText m.1) ++
        ofText ": ".toList ++ m.2) = rows.map (Row.line (List.replicate (2 * (depth + 1)) ' ')) := by
    rw [List.map_map]
    exact List.map_congr_left fun x _ => line x
  rw [Arb.object, if_neg (by simpa using ne)]
  simp only [lines, rowLines]
  simp [ofText]

/-- The lines of members start with a quote after blanks. -/
theorem rowLines_eq (depth : Nat) {rows : List Row} (ne : rows ≠ []) :
    ∃ more, rowLines depth rows =
      ofText (List.replicate (2 * (depth + 1)) ' ') ++ .ofChar '"' :: more := by
  cases rows with
  | nil => exact absurd rfl ne
  | cons x rows =>
    obtain ⟨tail, first⟩ : ∃ tail, x.line (List.replicate (2 * (depth + 1)) ' ') =
        ofText (List.replicate (2 * (depth + 1)) ' ') ++ .ofChar '"' :: tail := by
      exact ⟨_, by simp only [Row.line, Arb.quoted, List.append_assoc]; rfl⟩
    cases rows with
    | nil => exact ⟨tail, by simpa [rowLines] using first⟩
    | cons y rows =>
      rw [rowLines, List.map_cons, List.intercalate_cons_of_ne_nil (by simp), first]
      simp only [List.append_assoc, List.cons_append]
      exact ⟨_, rfl⟩

/-- An object whose members are read is read. -/
theorem reads_object (depth : Nat) (rows : List Row) (reads : ∀ x ∈ rows, Reads x.text x.value) :
    Reads (Arb.object depth (rows.map fun x => (x.name, x.text)))
      (.object (rows.map fun x => (ofText x.name, x.value))) := by
  intro fuel rest enough
  have gap : isGap (.ofChar '{') = false := by decide
  have apart : CodePoint.ofChar '{' ≠ .ofChar '"' := by decide
  by_cases ne : rows = []
  · subst ne
    cases fuel with
    | zero => simp [Arb.object, ofText] at enough
    | succ fuel =>
      have closes : expect '}' (.ofChar '}' :: rest) = some rest := expect_cons (by decide) _
      simp [Arb.object, ofText, readValue, gap, apart, closes]
  · rw [object_eq ne] at enough ⊢
    cases fuel with
    | zero => simp at enough
    | succ fuel =>
      obtain ⟨more, first⟩ := rowLines_eq depth ne
      have spaces (n : Nat) : ∀ c ∈ List.replicate n ' ', c = ' ' ∨ c = '\n' := by simp
      have inside : readMembers fuel (ofText ['\n'] ++ (rowLines depth rows ++
          (ofText ('\n' :: List.replicate (2 * depth) ' ') ++ .ofChar '}' :: rest))) =
            some (rows.map fun x => (ofText x.name, x.value), rest) := by
        rw [readMembers_append (isGap_ofText (by simp))]
        refine readMembers_rows (spaces _) (by simp) ne reads ?_ rest
        simp only [List.length_cons, List.length_append, rowLines] at enough
        omega
      have opens : expect '}' (ofText ['\n'] ++ (rowLines depth rows ++
          (ofText ('\n' :: List.replicate (2 * depth) ' ') ++ .ofChar '}' :: rest))) = none := by
        rw [expect_append (isGap_ofText (by simp)), first, List.append_assoc,
          expect_append (isGap_ofText (spaces _))]
        exact expect_other (by decide) (by decide) _
      simp only [List.cons_append, List.append_assoc, List.nil_append, readValue,
        List.dropWhile_cons, gap, Bool.false_eq_true, ↓reduceIte, apart, opens, inside,
        Option.map_some]

/-! ## Documents -/

/-- The value of a placeholder's attributes. -/
def ofPlaceholder (p : Placeholder) : Json :=
  .object (p.attributes.map fun a => (ofText a.1, .text (ofText a.2)))

/-- The value of a member of a document. -/
def ofMember : Arb.Member → Json
  | .value m => .text m
  | .emptyList => .list []
  | .metadata description placeholders =>
    .object ((ofText "description".toList, .text (ofText description)) ::
      if placeholders.isEmpty then []
      else [(ofText "placeholders".toList,
        .object (placeholders.map fun p => (ofText p.name, ofPlaceholder p)))])

/-- An object with a row for each item of a list. -/
theorem reads_object_map {α : Type} (depth : Nat) (items : List α) (row : α → Row)
    (reads : ∀ a ∈ items, Reads (row a).text (row a).value) :
    Reads (Arb.object depth (items.map fun a => ((row a).name, (row a).text)))
      (.object (items.map fun a => (ofText (row a).name, (row a).value))) := by
  have rows := reads_object depth (items.map row) (by simpa using reads)
  simpa only [List.map_map, Function.comp_def] using rows

theorem reads_placeholder (p : Placeholder) : Reads (Arb.renderPlaceholder p) (ofPlaceholder p) :=
  reads_object_map 3 p.attributes (fun a => ⟨a.1, Arb.quoted (ofText a.2), .text (ofText a.2)⟩)
    fun _ _ => reads_quoted _

theorem reads_member (m : Arb.Member) : Reads (Arb.renderMember m) (ofMember m) := by
  cases m with
  | value m => exact reads_quoted m
  | emptyList =>
    intro fuel rest enough
    have gap : isGap (.ofChar '[') = false := by decide
    have apart : CodePoint.ofChar '[' ≠ .ofChar '"' := by decide
    have apart' : CodePoint.ofChar '[' ≠ .ofChar '{' := by decide
    have closes : expect ']' (.ofChar ']' :: rest) = some rest := expect_cons (by decide) _
    cases fuel with
    | zero => simp [Arb.renderMember, ofText] at enough
    | succ fuel =>
      simp [Arb.renderMember, ofMember, ofText, readValue, gap, apart, apart', closes]
  | metadata description placeholders =>
    let documented : Row :=
      ⟨"description".toList, Arb.quoted (ofText description), .text (ofText description)⟩
    let holders : Row :=
      ⟨"placeholders".toList,
        Arb.object 2 (placeholders.map fun p => (p.name, Arb.renderPlaceholder p)),
        .object (placeholders.map fun p => (ofText p.name, ofPlaceholder p))⟩
    have first : Reads documented.text documented.value := reads_quoted _
    have second : Reads holders.text holders.value :=
      reads_object_map 2 placeholders (fun p => ⟨p.name, Arb.renderPlaceholder p, ofPlaceholder p⟩)
        fun p _ => reads_placeholder p
    cases hp : placeholders.isEmpty with
    | true =>
      have reads := reads_object 1 [documented] (by simpa using first)
      simpa [Arb.renderMember, ofMember, hp, documented] using reads
    | false =>
      have reads := reads_object 1 [documented, holders] (by simpa using ⟨first, second⟩)
      simpa [Arb.renderMember, ofMember, hp, documented, holders] using reads

/-- **The text of a document is read back.** -/
theorem read_render (d : Arb.Document) :
    read (Arb.render d) = some (.object (d.map fun m => (ofText m.1, ofMember m.2))) := by
  have reads := reads_object_map 0 d (fun m => ⟨m.1, Arb.renderMember m.2, ofMember m.2⟩)
    fun m _ => reads_member m.2
  have whole := reads (Arb.render d).length (ofText ['\n']) (by simp [Arb.render])
  have blank : (ofText ['\n']).all isGap = true := by decide
  unfold Arb.render at whole
  simp only [read, Arb.render, whole, Option.bind_eq_bind, Option.bind_some, blank, ↓reduceIte, Option.pure_def]

end Json

end Localizer.Resource
