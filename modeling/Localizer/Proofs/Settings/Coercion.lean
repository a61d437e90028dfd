import Localizer.Proofs.Workspace.Contents
import Localizer.Settings.File
import Mathlib.Control.Monad.Basic

/-!
# What the settings file gives

A file that holds a mapping gives every setting the value that the mapping has for it, where that
can be used, and its default otherwise (`load_coerces`). `IsText`, `IsNumber`, `IsTruth` and
`IsList` say which values can be used and as what. The loader takes the values one by one; of each
step it is known when it fails and what it answers otherwise (`Settles`), and `Settles.bind` puts
the steps together. They fail where an integer is too large for its setting (`InRange`), and then
the settings are not refused as invalid, but the loading ends all the same
(`huge_timeout_ends_loading`).
-/

namespace Localizer.Settings

open Text Number Yaml Workspace

/-! ## Values that can be used -/

/-- Texts and numbers can be used as texts, and truth values cannot. -/
inductive IsText : Value → Message → Prop
  | text (m : Message) : IsText (.text m) m
  | int (n : Int) : IsText (.int n) (ofInt n)
  | float (x : Double) : IsText (.float x) x.toText
  | nan (origin : Option NodeId) : IsText (.nan origin) Double.nan.toText

/-- Numbers can be used as numbers, and texts that name one. -/
inductive IsNumber : Value → Double → Prop
  | int {n : Int} {x : Double} (near : Double.ofInt? n = some x) : IsNumber (.int n) x
  | float (x : Double) : IsNumber (.float x) x
  | nan (origin : Option NodeId) : IsNumber (.nan origin) .nan
  | text {m : Message} {x : Double} (names : Double.ofText? m.view = some x) : IsNumber (.text m) x

/-- The words for a truth value. -/
def truthWords : Bool → List Text
  | true => ["true".toList, "yes".toList, "1".toList]
  | false => ["false".toList, "no".toList, "0".toList]

/-- Truth values can be used as such, and texts that are a word for one, whatever its letters and
the blanks around it. -/
inductive IsTruth : Value → Bool → Prop
  | bool (b : Bool) : IsTruth (.bool b) b
  | word {m : Message} {b : Bool} (word : (strip m.view).map Char.toLower ∈ truthWords b) :
    IsTruth (.text m) b

/-- An item of a list can be used if it is a text, a number or a truth value. -/
inductive IsItem : Value → Message → Prop
  | text {v : Value} {m : Message} (text : IsText v m) : IsItem v m
  | bool (b : Bool) : IsItem (.bool b) (boolText b)

/-- The items of a list that can be used. -/
inductive AreItems : List Value → List Message → Prop
  | nil : AreItems [] []
  | take {v : Value} {m : Message} {vs : List Value} {ms : List Message} (item : IsItem v m)
    (rest : AreItems vs ms) : AreItems (v :: vs) (m :: ms)
  | skip {v : Value} {vs : List Value} {ms : List Message} (none : ∀ m, ¬IsItem v m)
    (rest : AreItems vs ms) : AreItems (v :: vs) ms

/-- A text can be used as a list of one, binary data as a list of numbers, and a list by its
items. -/
inductive IsList (d : Document) : Value → List Message → Prop
  | text (m : Message) : IsList d (.text m) [m]
  | binary (bytes : List Nat) :
    IsList d (.binary bytes) (bytes.map fun b => Message.ofText (Text.ofNat b))
  | list {v : Value} {items : List Value} {ms : List Message}
    (holds : d.collection? v = some (.list items)) (are : AreItems items ms) : IsList d v ms

/-! ## Values that are too large -/

/-- An integer with more digits than can be written. -/
def TooLong : Value → Prop
  | .int n => maxDigits < (Text.ofNat n.natAbs).length
  | _ => False

/-- An integer that no double is near to. -/
def TooLarge : Value → Prop
  | .int n => Double.ofInt? n = none
  | _ => False

/-- The items of a list; none if the value is no list. -/
def itemsOf (d : Document) (v : Value) : List Value :=
  match d.collection? v with
  | some (.list items) => items
  | _ => []

/-- What a mapping has under a name; the null value if it has nothing. -/
def valueOf (entries : List (Value × Value)) (name : String) : Value :=
  (valueAt? name.toList entries).getD .null

/-- No integer of a mapping is too large for the setting that it stands for. -/
structure InRange (d : Document) (entries : List (Value × Value)) : Prop where
  texts : ∀ name ∈ ["input", "output", "template_arb", "class_name", "locale", "import_uri"],
    ¬TooLong (valueOf entries name)
  timeout : ¬TooLarge (valueOf entries "generator_timeout")
  lists : ∀ name ∈ ["exclude_paths", "ignore_patterns"],
    ∀ item ∈ itemsOf d (valueOf entries name), ¬TooLong item

instance : DecidablePred TooLong := fun v =>
  match v with
  | .int n => inferInstanceAs (Decidable (maxDigits < (Text.ofNat n.natAbs).length))
  | .null | .bool _ | .float _ | .nan _ | .text _ | .binary _ | .date .. | .moment ..
  | .collection _ => .isFalse id

instance : DecidablePred TooLarge := fun v =>
  match v with
  | .int n => inferInstanceAs (Decidable (Double.ofInt? n = none))
  | .null | .bool _ | .float _ | .nan _ | .text _ | .binary _ | .date .. | .moment ..
  | .collection _ => .isFalse id

theorem inRange_iff (d : Document) (entries : List (Value × Value)) :
    InRange d entries ↔
      (∀ name ∈ ["input", "output", "template_arb", "class_name", "locale", "import_uri"],
        ¬TooLong (valueOf entries name)) ∧ ¬TooLarge (valueOf entries "generator_timeout") ∧
      ∀ name ∈ ["exclude_paths", "ignore_patterns"],
        ∀ item ∈ itemsOf d (valueOf entries name), ¬TooLong item :=
  ⟨fun h => ⟨h.texts, h.timeout, h.lists⟩, fun h => ⟨h.1, h.2.1, h.2.2⟩⟩

instance (d : Document) (entries : List (Value × Value)) : Decidable (InRange d entries) :=
  decidable_of_iff _ (inRange_iff d entries).symm

/-! ## Settings -/

/-- A setting is what the file has for it, if that can be used, and the default otherwise. -/
def Given {α β : Type} (usable : α → Prop) (use : α → β) (default x : β) : Prop :=
  (∃ y, usable y ∧ x = use y) ∨ (∀ y, ¬usable y) ∧ x = default

/-- The settings that a mapping gives to a project. -/
structure Coerced (d : Document) (entries : List (Value × Value)) (root : Path) (s : Settings) :
    Prop where
  root : s.root = root
  inputDir : Given (IsText (valueOf entries "input")) .text (.text "lib".toList) s.inputDir
  outputDir : Given (IsText (valueOf entries "output")) .text (.text "lib/l10n".toList) s.outputDir
  templateArb :
    Given (IsText (valueOf entries "template_arb")) .text (.text "app_en.arb".toList) s.templateArb
  className :
    Given (IsText (valueOf entries "class_name")) .text (.text "AppLocalizations".toList)
      s.className
  locale : Given (IsText (valueOf entries "locale")) .text (.text "en".toList) s.locale
  importUri : Given (IsText (valueOf entries "import_uri")) some none s.importUri
  replace : Given (IsTruth (valueOf entries "replace")) id false s.replace
  dryRun : s.dryRun = false
  checkDependencies :
    Given (IsTruth (valueOf entries "check_dependencies")) id true s.checkDependencies
  runGenerator : Given (IsTruth (valueOf entries "run_generator")) id true s.runGenerator
  generatorTimeout :
    Given (IsNumber (valueOf entries "generator_timeout")) id (.ofRatio false 300 1)
      s.generatorTimeout
  excludePaths : Given (IsList d (valueOf entries "exclude_paths")) id [] s.excludePaths
  ignorePatterns : Given (IsList d (valueOf entries "ignore_patterns")) id [] s.ignorePatterns

/-- A text holds a mapping: that at the root of its document, or the empty one if there is nothing
at the root. -/
inductive Holds (s : Text) : Document → List (Value × Value) → Prop
  | blank (blank : strip s = []) : Holds s { root := .null } []
  | null {d : Document} (solid : strip s ≠ []) (read : Yaml.load s = .ok d)
    (null : d.root = .null) : Holds s d []
  | mapping {d : Document} {entries : List (Value × Value)} (solid : strip s ≠ [])
    (read : Yaml.load s = .ok d) (mapping : d.entries? d.root = some entries) : Holds s d entries

/-! ## Using values -/

/-- A step fails, and not for want of form, just if something is wrong, and otherwise its answer is
right. -/
inductive Settles {α : Type} (wrong : Prop) (right : α → Prop) (x : Except Yaml.Error α) : Prop
  | fails {e : Yaml.Error} (because : wrong) (error : x = .error e) (form : e ≠ .malformed)
  | answers {y : α} (because : ¬wrong) (ok : x = .ok y) (right : right y)

namespace Settles

variable {α β : Type} {wrong wrong' : Prop} {right : α → Prop} {right' : β → Prop}
  {x : Except Yaml.Error α}

theorem pure {y : α} (h : right y) : Settles False right (Pure.pure y) := .answers id rfl h

theorem bind {f : α → Except Yaml.Error β} (first : Settles wrong right x)
    (next : ∀ y, right y → Settles wrong' right' (f y)) :
    Settles (wrong ∨ wrong') right' (x >>= f) := by
  cases first with
  | fails because error form => exact .fails (.inl because) (by rw [error]; rfl) form
  | answers because ok right =>
    rw [ok]
    cases next _ right with
    | fails because error form => exact .fails (.inr because) error form
    | answers because' ok right => exact .answers (fun h => h.elim because because') ok right

theorem map {f : α → β} (h : Settles wrong right x) (next : ∀ y, right y → right' (f y)) :
    Settles wrong right' (x.map f) := by
  cases h with
  | fails because error form => exact .fails because (by rw [error]; rfl) form
  | answers because ok right => exact .answers because (by rw [ok]; rfl) (next _ right)

theorem congr (h : Settles wrong right x) (iff : wrong ↔ wrong') : Settles wrong' right x := by
  rwa [propext iff] at h

end Settles

/-- An answer that is there just if a value can be used, and then is that use. -/
def Answers {α : Type} (usable : α → Prop) (o : Option α) : Prop := ∀ x, o = some x ↔ usable x

theorem Answers.given {α β : Type} {usable : α → Prop} {o : Option α} (h : Answers usable o)
    (use : α → β) (default : β) : Given usable use default ((o.map use).getD default) := by
  cases o with
  | none => exact .inr ⟨fun y hy => by simpa using (h y).2 hy, rfl⟩
  | some y => exact .inl ⟨y, (h y).1 rfl, rfl⟩

theorem answers_some {α : Type} {usable : α → Prop} {x : α} (h : usable x)
    (unique : ∀ y, usable y → x = y) : Answers usable (some x) :=
  fun y => ⟨fun e => Option.some.inj e ▸ h, fun hy => congrArg some (unique y hy)⟩

theorem answers_none {α : Type} {usable : α → Prop} (h : ∀ y, ¬usable y) : Answers usable none :=
  fun y => ⟨fun e => (Option.some_ne_none y e.symm).elim, fun hy => (h y hy).elim⟩

theorem messageOf?_settles (v : Value) :
    Settles (TooLong v) (Answers (IsText v)) (messageOf? v) := by
  cases v with
  | int n =>
    by_cases long : maxDigits < (Text.ofNat n.natAbs).length
    · have error : messageOf? (.int n) = .error .badScalar := by
        simp [messageOf?, intText, long, Except.map]
      exact .fails long error (by decide)
    · have ok : messageOf? (.int n) = .ok (some (ofInt n)) := by
        simp [messageOf?, intText, long, Except.map]
      exact .answers long ok (answers_some (.int n) (by rintro _ ⟨⟩; rfl))
  | text m =>
    exact .answers id rfl (answers_some (.text m) (by rintro _ ⟨⟩; rfl))
  | float x =>
    exact .answers id rfl (answers_some (.float x) (by rintro _ ⟨⟩; rfl))
  | nan origin =>
    exact .answers id rfl (answers_some (.nan origin) (by rintro _ ⟨⟩; rfl))
  | _ => exact .answers id rfl (answers_none (by rintro _ ⟨⟩))

theorem isItem_iff {v : Value} {m : Message} (h : ∀ b, v ≠ .bool b) : IsItem v m ↔ IsText v m := by
  refine ⟨fun item => ?_, .text⟩
  cases item with
  | text text => exact text
  | bool b => exact absurd rfl (h b)

theorem itemMessage?_settles (v : Value) :
    Settles (TooLong v) (Answers (IsItem v)) (itemMessage? v) := by
  by_cases bool : ∃ b, v = .bool b
  · obtain ⟨b, rfl⟩ := bool
    refine .answers id rfl (answers_some (.bool b) ?_)
    rintro _ (⟨⟨⟩⟩ | ⟨⟩)
    rfl
  · have other : ∀ b, v ≠ .bool b := fun b h => bool ⟨b, h⟩
    have same : itemMessage? v = messageOf? v := by
      unfold itemMessage?
      split
      · exact absurd rfl (other _)
      · rfl
    have usable : IsItem v = IsText v := funext fun m => propext (isItem_iff other)
    rw [same, usable]
    exact messageOf?_settles v

theorem doubleOf?_settles (v : Value) :
    Settles (TooLarge v) (Answers (IsNumber v)) (doubleOf? v) := by
  cases v with
  | int n =>
    cases near : Double.ofInt? n with
    | none =>
      have error : doubleOf? (.int n) = .error .tooLarge := by simp [doubleOf?, near]
      exact .fails near error (by decide)
    | some x =>
      have within : ¬TooLarge (.int n) := by simp [TooLarge, near]
      have ok : doubleOf? (.int n) = .ok (some x) := by simp [doubleOf?, near]
      refine .answers within ok (answers_some (.int near) ?_)
      rintro _ ⟨near'⟩
      exact Option.some.inj (near.symm.trans near')
  | float x =>
    exact .answers id rfl (answers_some (.float x) (by rintro _ ⟨⟩; rfl))
  | nan origin =>
    exact .answers id rfl (answers_some (.nan origin) (by rintro _ ⟨⟩; rfl))
  | text m =>
    refine .answers id rfl fun x => ⟨.text, ?_⟩
    rintro ⟨⟩
    assumption
  | _ => exact .answers id rfl (answers_none (by rintro _ ⟨⟩))

/-- No text is a word for both truth values. -/
theorem not_mem_truthWords_false {word : Text} (h : word ∈ truthWords true) :
    word ∉ truthWords false := by
  simp only [truthWords, List.mem_cons, List.not_mem_nil, or_false] at h
  rcases h with rfl | rfl | rfl <;> decide

theorem boolOf?_text (m : Message) :
    boolOf? (.text m) = if (strip m.view).map Char.toLower ∈ truthWords true then some true
      else if (strip m.view).map Char.toLower ∈ truthWords false then some false else none := by
  simp only [boolOf?, truthWords, List.mem_cons, List.not_mem_nil, or_false]

theorem answers_boolOf? (v : Value) : Answers (IsTruth v) (boolOf? v) := by
  cases v with
  | bool b => exact answers_some (.bool b) (by rintro _ ⟨⟩; rfl)
  | text m =>
    rw [boolOf?_text]
    split
    next yes =>
      refine answers_some (.word yes) ?_
      rintro b (_ | word)
      cases b with
      | false => exact absurd word (not_mem_truthWords_false yes)
      | true => rfl
    next notYes =>
      split
      next no =>
        refine answers_some (.word no) ?_
        rintro b (_ | word)
        cases b with
        | false => rfl
        | true => exact absurd word notYes
      next notNo =>
        refine answers_none ?_
        rintro b (_ | word)
        cases b with
        | false => exact notNo word
        | true => exact notYes word
  | _ => exact answers_none (by rintro _ ⟨⟩)

theorem itemMessages_settles (items : List Value) :
    Settles (∃ item ∈ items, TooLong item)
      (fun os : List (Option Message) => AreItems items (os.filterMap id))
      (items.mapM itemMessage?) := by
  induction items with
  | nil => exact .answers (by simp) rfl .nil
  | cons v vs ih =>
    rw [List.mapM_cons]
    have steps : Settles (TooLong v ∨ (∃ item ∈ vs, TooLong item) ∨ False)
        (fun os : List (Option Message) => AreItems (v :: vs) (os.filterMap id)) _ :=
      (itemMessage?_settles v).bind fun o first => ih.bind fun os rest => .pure (y := o :: os) <| by
        cases o with
        | none => exact .skip (fun m item => by simpa using (first m).2 item) rest
        | some m => exact .take ((first m).1 rfl) rest
    exact steps.congr (by simp)

theorem messagesOf_eq_map {d : Document} {v : Value} {items : List Value}
    (holds : d.collection? v = some (.list items)) :
    messagesOf d v = (items.mapM itemMessage?).map (·.filterMap id) := by
  cases v with
  | collection id =>
    simp only [messagesOf, holds]
    cases items.mapM itemMessage? <;> rfl
  | _ => cases holds

theorem messagesOf_settles (d : Document) (v : Value) :
    Settles (∃ item ∈ itemsOf d v, TooLong item) (Given (IsList d v) id []) (messagesOf d v) := by
  by_cases list : ∃ items, d.collection? v = some (.list items)
  · obtain ⟨items, holds⟩ := list
    have all : itemsOf d v = items := by simp only [itemsOf, holds]
    rw [messagesOf_eq_map holds, all]
    exact (itemMessages_settles items).map fun os are => .inl ⟨_, .list holds are, rfl⟩
  · have none : itemsOf d v = [] := by
      unfold itemsOf
      split
      next items holds => exact absurd ⟨items, holds⟩ list
      next => rfl
    have short : ¬∃ item ∈ itemsOf d v, TooLong item := by simp [none]
    have unlisted {ms : List Message} (are : IsList d v ms) :
        (∃ m, v = .text m) ∨ ∃ bytes, v = .binary bytes := by
      cases are with
      | text m => exact .inl ⟨m, rfl⟩
      | binary bytes => exact .inr ⟨bytes, rfl⟩
      | list holds are => exact absurd ⟨_, holds⟩ list
    cases v with
    | text m => exact .answers short rfl (.inl ⟨_, .text m, rfl⟩)
    | binary bytes => exact .answers short rfl (.inl ⟨_, .binary bytes, rfl⟩)
    | collection id =>
      have ok : messagesOf d (.collection id) = .ok [] := by
        simp only [messagesOf]
        split
        next items holds => exact absurd ⟨items, holds⟩ list
        next => rfl
      exact .answers short ok (.inr ⟨fun ms are => by simpa using unlisted are, rfl⟩)
    | _ => exact .answers short rfl (.inr ⟨fun ms are => by simpa using unlisted are, rfl⟩)

theorem settingOf?_settles (v : Value) :
    Settles (TooLong v) (Answers fun x => ∃ m, IsText v m ∧ x = .text m) (settingOf? v) := by
  refine (messageOf?_settles v).map fun o answers x => ?_
  simp only [Option.map_eq_some_iff, answers _, eq_comm]

theorem given_setting {v : Value} {o : Option Setting} {default : Setting}
    (h : Answers (fun x => ∃ m, IsText v m ∧ x = .text m) o) :
    Given (IsText v) .text default (o.getD default) := by
  cases o with
  | none => exact .inr ⟨fun m text => by simpa using (h _).2 ⟨m, text, rfl⟩, rfl⟩
  | some x => exact .inl ((h x).1 rfl)

theorem Answers.given_id {α : Type} {usable : α → Prop} {o : Option α} {default : α}
    (h : Answers usable o) : Given usable id default (o.getD default) := by
  simpa using h.given id default

theorem given_nonempty {usable : List Message → Prop} {ms : List Message}
    (h : Given usable id [] ms) : Given usable id [] ((nonempty? ms).getD []) := by
  have same : (nonempty? ms).getD [] = ms := by cases ms <;> rfl
  rwa [same]

theorem not_inRange_iff (d : Document) (entries : List (Value × Value)) :
    ¬InRange d entries ↔ TooLong (valueOf entries "input") ∨ TooLong (valueOf entries "output") ∨
      TooLong (valueOf entries "template_arb") ∨ TooLong (valueOf entries "class_name") ∨
      TooLong (valueOf entries "locale") ∨ TooLong (valueOf entries "import_uri") ∨
      TooLarge (valueOf entries "generator_timeout") ∨
      (∃ item ∈ itemsOf d (valueOf entries "exclude_paths"), TooLong item) ∨
      (∃ item ∈ itemsOf d (valueOf entries "ignore_patterns"), TooLong item) ∨ False := by
  simp only [inRange_iff, List.forall_mem_cons, List.not_mem_nil, false_imp_iff, implies_true,
    and_true, Classical.not_and_iff_not_or_not, Classical.not_not, Classical.not_forall,
    exists_prop, or_assoc, or_false]

theorem overridesOf_settles (d : Document) (entries : List (Value × Value)) (root : Path) :
    Settles (¬InRange d entries)
      (fun o => Coerced d entries root (({ root } : Settings).withOverrides o))
      (overridesOf d entries) := by
  refine Settles.congr ?_ (not_inRange_iff d entries).symm
  refine (settingOf?_settles _).bind fun input hInput =>
    (settingOf?_settles _).bind fun output hOutput =>
    (settingOf?_settles _).bind fun template hTemplate =>
    (settingOf?_settles _).bind fun className hClass =>
    (settingOf?_settles _).bind fun locale hLocale =>
    (messageOf?_settles _).bind fun uri hUri =>
    (doubleOf?_settles _).bind fun timeout hTimeout =>
    (messagesOf_settles d _).bind fun excluded hExcluded =>
    (messagesOf_settles d _).bind fun ignored hIgnored => .pure ?_
  exact {
    root := rfl
    inputDir := given_setting hInput
    outputDir := given_setting hOutput
    templateArb := given_setting hTemplate
    className := given_setting hClass
    locale := given_setting hLocale
    importUri := by cases uri <;> exact hUri.given some none
    replace := (answers_boolOf? _).given_id
    dryRun := rfl
    checkDependencies := (answers_boolOf? _).given_id
    runGenerator := (answers_boolOf? _).given_id
    generatorTimeout := hTimeout.given_id
    excludePaths := given_nonempty hExcluded
    ignorePatterns := given_nonempty hIgnored }

/-! ## Loading -/

theorem exists?_of_readLines {t : Tree} {p : Path} {s : Text} (h : t.readLines p = .ok s) :
    t.exists? p = .ok true := by
  cases read : t.readText p with
  | error e => simp [Tree.readLines, read, bind, Except.bind] at h
  | ok text =>
    obtain ⟨bytes, place, found, -⟩ := Tree.exists_of_readText read
    simp [Tree.exists?, Tree.node?, place, found, bind, Except.bind, pure, Except.pure]

theorem load_eq_ofText {t : Tree} {p file : Path} {s : Text} (place : filePath t p = .ok file)
    (readable : t.readLines file = .ok s) : load t p = ofText file.parent s := by
  simp only [load, place, exists?_of_readLines readable, readable, Except.mapError, bind,
    Except.bind, if_true]

/-- A text that is not blank and is read gives what its root stands for. -/
theorem ofText_of_read {s : Text} {d : Document} (root : Path) (solid : strip s ≠ [])
    (read : Yaml.load s = .ok d) :
    ofText root s = match d.root, d.entries? d.root with
      | .null, _ => .ok { root }
      | _, some entries => do
        return ({ root } : Settings).withOverrides (← (overridesOf d entries).mapError .yaml)
      | _, none => .error .notMapping := by
  simp only [ofText, List.isEmpty_iff, solid, if_false, read]
  rfl

/-- A text that holds a mapping gives the defaults with the values of its entries in place. -/
theorem ofText_of_holds {s : Text} {d : Document} {entries : List (Value × Value)} (root : Path)
    (holds : Holds s d entries) :
    ofText root s =
      ((overridesOf d entries).mapError .yaml).map ({ root } : Settings).withOverrides := by
  have without (d : Document) : overridesOf d [] = .ok {} := rfl
  cases holds with
  | blank blank =>
    rw [without]
    simp only [ofText, blank]
    rfl
  | null solid read null =>
    rw [without, ofText_of_read root solid read, null]
    rfl
  | mapping solid read mapping =>
    have notNull : d.root ≠ .null := by
      intro null
      rw [null] at mapping
      cases mapping
    rw [ofText_of_read root solid read, mapping]
    split
    next null => exact absurd null notNull
    next h _ =>
      obtain rfl := Option.some.inj h
      cases overridesOf d entries <;> rfl
    next h _ => cases h

/-- A text that holds no mapping is no YAML, or has something else at its root. -/
theorem ofText_of_not_holds {s : Text} (root : Path) (none : ∀ d entries, ¬Holds s d entries) :
    (∃ e, Yaml.load s = .error e ∧ ofText root s = .error (.yaml e)) ∨
      ∃ d, Yaml.load s = .ok d ∧ ofText root s = .error .notMapping := by
  have solid : strip s ≠ [] := fun blank => none _ _ (.blank blank)
  cases read : Yaml.load s with
  | error e =>
    refine .inl ⟨e, rfl, ?_⟩
    simp only [ofText, List.isEmpty_iff, solid, if_false, read]
    rfl
  | ok d =>
    refine .inr ⟨d, rfl, ?_⟩
    rw [ofText_of_read root solid read]
    split
    next null => exact absurd (.null solid read null) (none d [])
    next entries h _ => exact absurd (.mapping solid read h) (none d entries)
    next => rfl

/-- The settings of a file that can be read: where it holds a mapping, every setting is what the
mapping has for it, or the default; where it holds none, the settings are refused as invalid. Only
an integer that is too large for its setting ends the loading in any other way. -/
theorem load_coerces {t : Tree} {p file : Path} {s : Text} (place : filePath t p = .ok file)
    (readable : t.readLines file = .ok s)
    (reader : ∀ e, Yaml.load s = .error e → e = .malformed) :
    (∀ d entries, Holds s d entries → InRange d entries →
      ∃ settings, load t p = .ok settings ∧ Coerced d entries file.parent settings) ∧
    (∀ d entries, Holds s d entries → ¬InRange d entries →
      ∃ e, load t p = .error e ∧ e.isInvalid = false) ∧
    ((∀ d entries, ¬Holds s d entries) →
      load t p = .error (.yaml .malformed) ∨ load t p = .error .notMapping) := by
  rw [load_eq_ofText place readable]
  refine ⟨fun d entries holds inRange => ?_, fun d entries holds tooLarge => ?_, fun none => ?_⟩
  · rw [ofText_of_holds _ holds]
    cases overridesOf_settles d entries file.parent with
    | fails because _ _ => exact absurd inRange because
    | answers _ ok coerced => exact ⟨_, by rw [ok]; rfl, coerced⟩
  · rw [ofText_of_holds _ holds]
    cases overridesOf_settles d entries file.parent with
    | fails _ error form => exact ⟨_, by rw [error]; rfl, by simp [LoadError.isInvalid, form]⟩
    | answers because _ _ => exact absurd tooLarge because
  · rcases ofText_of_not_holds file.parent none with ⟨e, read, refused⟩ | ⟨d, -, refused⟩
    · rw [refused, reader e read]
      exact .inl rfl
    · exact .inr refused

/-- A project at the root with this settings file. -/
def configured (s : Text) : Tree where
  root := .file fileName (Tree.encode s) .empty

theorem filePath_configured (s : Text) :
    filePath (configured s) (.ofText "/".toList) = .ok (.ofText "/.l10n-extract.yml".toList) := rfl

theorem readLines_configured (s : Text) :
    (configured s).readLines (.ofText "/.l10n-extract.yml".toList) = .ok (normalizeNewlines s) := by
  have read : (configured s).read (.ofText "/.l10n-extract.yml".toList) = .ok (Tree.encode s) := rfl
  simp only [Tree.readLines, Tree.readText, read, bind, Except.bind, Tree.decode_encode]
  rfl

/-- A number and a word that can be used, and a list where a number should be. -/
def mixedSettings : Text :=
  "locale: 12\nreplace: ' Yes'\ngenerator_timeout: [soon]\nexclude_paths: [gen, 7]\n".toList

/-- What the settings hold. -/
def mixedEntries : List (Value × Value) :=
  [(.text "locale".toList, .int 12), (.text "replace".toList, .text " Yes".toList),
   (.text "generator_timeout".toList, .collection 6), (.text "exclude_paths".toList, .collection 9)]

set_option maxRecDepth 100000 in
theorem load_coerces_mixed :
    ∃ d settings, Holds mixedSettings d mixedEntries ∧ InRange d mixedEntries ∧
      load (configured mixedSettings) (.ofText "/".toList) = .ok settings ∧
      Coerced d mixedEntries (.ofText "/".toList) settings := by
  have readable : (configured mixedSettings).readLines (.ofText "/.l10n-extract.yml".toList) =
      .ok mixedSettings := readLines_configured mixedSettings
  have found : ∃ d ∈ (Yaml.load mixedSettings).toOption,
      d.entries? d.root = some mixedEntries ∧ InRange d mixedEntries := by decide +kernel
  obtain ⟨d, here, mapping, inRange⟩ := found
  cases read : Yaml.load mixedSettings with
  | error e => simp [read, Except.toOption] at here
  | ok d' =>
    obtain rfl : d' = d := by simpa [read, Except.toOption] using here
    have holds : Holds mixedSettings d' mixedEntries := .mapping (by decide +kernel) read mapping
    have reader : ∀ e, Yaml.load mixedSettings = .error e → e = .malformed := by
      intro e h
      simp [read] at h
    obtain ⟨settings, loaded, coerced⟩ :=
      (load_coerces (filePath_configured _) readable reader).1 d' mixedEntries holds inRange
    exact ⟨d', settings, holds, inRange, loaded, coerced⟩

/-- A number of seconds that no double is near to. -/
def hugeTimeout : Text := "generator_timeout: 1".toList ++ List.replicate 400 '0' ++ ['\n']

set_option maxRecDepth 100000 in
/-- The file holds a mapping, the settings are not refused as invalid, and the default does not
stay. -/
theorem huge_timeout_ends_loading :
    (∃ d ∈ (Yaml.load hugeTimeout).toOption,
      d.entries? d.root = some [(.text "generator_timeout".toList, .int (Nat.pow 10 400))]) ∧
    load (configured hugeTimeout) (.ofText "/".toList) = .error (.yaml .tooLarge) ∧
    (LoadError.yaml .tooLarge).isInvalid = false := by
  have unbroken : normalizeNewlines hugeTimeout = hugeTimeout := by decide +kernel
  have readable : (configured hugeTimeout).readLines (.ofText "/.l10n-extract.yml".toList) =
      .ok hugeTimeout := (readLines_configured hugeTimeout).trans (congrArg _ unbroken)
  rw [load_eq_ofText (filePath_configured hugeTimeout) readable]
  decide +kernel

end Localizer.Settings
