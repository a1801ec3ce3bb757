import Preferences.Proofs.Command.Placement
import Preferences.Proofs.Command.Stored
import Preferences.Proofs.Number.Words

/-!
# Integers on the command line

The text of a negative integer begins with a hyphen, so it is taken for an option unless the words
before it end the options. That apart, every integer of a kind can be set, and the next run shows
its text. Main statement: `every_integer_is_set_and_shown`.
-/

namespace Preferences

namespace Arguments

variable {form : Form} {w : Words} {word : String} {rest : List String} {kind : ValueKind}

/-- A plain word is taken while there is room for it. -/
lemma read_plain (plain : option? word = none) (none : w.pending = none)
    (room : w.plain.length < form.arity) :
    read form false w (word :: rest) =
      read form false { w with plain := w.plain ++ [word] } rest := by
  have other : word ≠ "--" := by
    rintro rfl
    cases plain
  have looked : w.pending ≠ some Option.none := by
    rw [none]
    nofun
  rw [read_word plain other looked, Words.takePlain, if_pos room, settle_of_none none]
  rfl

/-- The value of a kind is looked at when the next word is taken. -/
lemma read_kind (takes : form.takesKind = true) (none : w.pending = none) :
    read form false w ("--kind" :: kind.name :: rest) =
      read form false { w with pending := some (some kind.name) } rest := by
  have other : kind.name ≠ "--" := by cases kind <;> decide
  have plain : option? kind.name = Option.none := by cases kind <;> rfl
  rw [read_kind_option takes none, read, if_neg (by decide), if_neg other, plain]
  dsimp only
  rw [if_pos rfl]

/-- A kind that was put off is taken. -/
lemma settle_kind (first : w.kind = none) (put : w.pending = some (some kind.name)) :
    w.settle = .ok { w with kind := some kind, pending := none } := by
  have named : ValueKind.ofName? kind.name = some kind := by cases kind <;> rfl
  obtain ⟨before, kind', sync, pending⟩ := w
  cases first
  cases put
  simp only [Words.settle, Option.isSome_none, Bool.false_eq_true, if_false, named]

end Arguments

open Arguments

namespace Command

variable {key text : String} {kind : ValueKind}

/-- A get is read by its form and then made into a command. -/
lemma parse_get (rest : List String) :
    parse ("get" :: rest) = (read Subcommand.get.form false {} rest).bind Subcommand.get.command :=
  rfl

/-- The words of a set with a plain key and a plain value. -/
lemma parse_set_plain (key_plain : option? key = none) (text_plain : option? text = none) :
    parse ["set", key, text, "--kind", kind.name] = .ok (.set key text kind false) := by
  rw [parse_set, read_plain key_plain rfl (by exact Nat.zero_lt_two),
    read_plain text_plain rfl (by exact Nat.one_lt_two), read_kind rfl rfl, Arguments.read,
    settle_kind rfl rfl]
  rfl

/-- Behind the end of the options all words are plain. -/
lemma parse_set_escaped (key text : String) :
    parse ["set", "--kind", kind.name, "--", key, text] = .ok (.set key text kind false) := by
  let line : Line := { parts := [.kind kind.name], behind := some [key, text] }
  exact parse_of_sets (l := line) ⟨rfl, .inr rfl, rfl⟩

/-- A key and a kind make a get. -/
lemma parse_get_plain (key_plain : option? key = none) :
    parse ["get", key, "--kind", kind.name] = .ok (.get key kind) := by
  rw [parse_get, read_plain key_plain rfl (by exact Nat.zero_lt_one), read_kind rfl rfl,
    Arguments.read, settle_kind rfl rfl]
  rfl

/-- A word of a hyphen and a digit is no option that there is. -/
lemma parse_set_signed {c : Char} {cs : List Char} (key_plain : option? key = none)
    (signed : text.toList = '-' :: c :: cs) (digit : c.isDigit = true) (rest : List String) :
    parse ("set" :: key :: text :: rest) = .error .unknownArgument := by
  have other (d : Char) (letter : d.isDigit = false) : c ≠ d := by
    rintro rfl
    exact absurd (digit.symm.trans letter) (by decide)
  have hyphen : c ≠ '-' := other '-' (by decide)
  have short : option? text = some (.short c) := by
    unfold option?
    rw [signed]
    split
    next same => exact absurd (List.cons.inj (List.cons.inj same).2).1 hyphen
    next same => rw [(List.cons.inj (List.cons.inj same).2).1]
    next no => exact absurd rfl (no c cs)
  have ends : text ≠ "--" := by
    rintro rfl
    exact hyphen (List.cons.inj (List.cons.inj signed).2).1.symm
  have unknown : common Subcommand.set.form.name (.short c) = .unknownArgument := by
    rw [common, if_neg (other 'h' (by decide)), if_neg (other 'V' (by decide))]
  rw [parse_set, read_plain key_plain rfl (by exact Nat.zero_lt_two), Arguments.read,
    if_neg (by decide), if_neg ends, short]
  dsimp only
  have taken (w : Words) : w.takeOption Subcommand.set.form (.short c) = .error .unknownArgument :=
    congrArg w.report unknown
  rw [taken]
  rfl

end Command

/-! ## Integers -/

/-- The range of the integers of a kind. -/
def ValueKind.width? : ValueKind → Option Width
  | long => some .int64
  | int => some .int32
  | _ => none

/-- The text of an integer. -/
def integerText (z : Int) : String := String.ofList (intDigits z)

/-- The text of an integer that is not negative is no option. -/
lemma integerText_plain {z : Int} (nonneg : 0 ≤ z) : option? (integerText z) = none := by
  refine option?_eq_none ?_
  obtain ⟨n, rfl⟩ := Int.eq_ofNat_of_zero_le nonneg
  rw [integerText, String.toList_ofList]
  intro hyphen
  have among : '-' ∈ natDigits n := List.mem_of_head? hyphen
  exact absurd (Json.isDigit_of_mem_natDigits among) (by decide)

/-- The text of a negative integer begins with a hyphen and a digit. -/
lemma integerText_signed {z : Int} (neg : z < 0) :
    ∃ c cs, (integerText z).toList = '-' :: c :: cs ∧ c.isDigit = true := by
  obtain ⟨n, rfl⟩ := Int.eq_negSucc_of_lt_zero neg
  obtain ⟨c, cs, digits⟩ : ∃ c cs, natDigits (n + 1) = c :: cs :=
    List.exists_cons_of_ne_nil Nat.toDigits_ne_nil
  refine ⟨c, cs, ?_, Json.isDigit_of_mem_natDigits (digits ▸ List.mem_cons_self)⟩
  rw [integerText, String.toList_ofList, intDigits, digits]

/-- The text of an integer of a kind is a word of the kind, and its normal form. -/
lemma parse_integerText {kind : ValueKind} {width : Width} (integers : kind.width? = some width)
    (n : Word width) :
    (∃ p stored, kind.parse (integerText n.val) = .ok p ∧
      (toStored {} p.type p.value).1 = .ok stored) ∧
      kind.normalForm? (integerText n.val) = some (integerText n.val) ∧
      kind.Exact (integerText n.val) := by
  have parsed (signed : width.lo < 0) : Word.parse width (integerText n.val).toList = .ok n := by
    rw [integerText, String.toList_ofList]
    exact Word.parse_intDigits signed n
  cases kind with
  | long | int =>
    cases integers
    rw [ValueKind.parse, ValueKind.normalForm?, parsed (by decide)]
    exact ⟨⟨_, _, rfl, rfl⟩, rfl, fun document => by cases document⟩
  | bool | string | json => cases integers

/-! ## Runs -/

namespace World

variable {w : World} {env : Environment} {config : Config} {key raw shown : String}
  {kind : ValueKind} {sync : Bool}

/-- The program finds its configuration and its preference file, can write the file, and does not
write over the configuration. -/
structure Works (w : World) (env : Environment) (config : Config) : Prop where
  configured : Config.load w.disk env.configFile = .ok config
  chosen : config.effectiveAlias ≠ ""
  loaded : ∃ values, PreferenceFile.load w.disk (config.dataPath env) = .ok values
  writable : Writable w.disk (config.dataPath env)
  rooted : w.disk.Rooted
  apart : env.Apart w.disk.cwd (config.dataPath env)

/-- Where the program works, a word that is set is shown in its normal form by the next run. -/
lemma Works.shows (works : w.Works env config) (named : key ≠ "") {p : ParsedValue} {stored : Value}
    (read : kind.parse raw = .ok p) (encoded : (toStored {} p.type p.value).1 = .ok stored)
    (exact : kind.Exact raw) (normal : kind.normalForm? raw = some shown)
    {words next : List String} (sets : Command.parse words = .ok (.set key raw kind sync))
    (gets : Command.parse next = .ok (.get key kind)) :
    (w.run env words).1 = .done "" ∧ ((w.run env words).2.run env next).1 = .line shown := by
  obtain ⟨values, loaded⟩ := works.loaded
  have done : (w.perform env config (.set key raw kind sync)).1 = .done "" :=
    perform_set_of_load loaded works.chosen named read encoded fun _ => works.writable
  rw [run_of_parse sets works.configured]
  refine ⟨done, ?_⟩
  rcases out : w.perform env config (.set key raw kind sync) with ⟨o, w'⟩
  rw [out] at done
  cases done
  obtain ⟨-, -, values', p', stored', read', encoded', handed⟩ := perform_set out rfl
  obtain ⟨shown', normal', displays⟩ := ValueKind.display_of_parse named read' exact encoded'
  cases normal.symm.trans normal'
  have lasts : w.Lasts w' env config (.get key kind) shown :=
    .of_handed works.configured handed fun loaded => perform_get works.chosen loaded displays
  exact lasts.answers works.writable (lasts.finds works.writable works.rooted works.apart) _ gets

/-- The program works on an empty disk. -/
lemma works_sample : (sample (.fresh [])).Works atRoot {} where
  configured := by
    rw [Config.load, configFile_atRoot]
    rfl
  chosen := by decide
  loaded := by
    rw [dataPath_atRoot]
    exact ⟨∅, rfl⟩
  writable := by
    rw [dataPath_atRoot]
    exact ⟨_, rfl⟩
  rooted place name there := by
    have below : place ++ [name] ≠ [] := by simp
    exact absurd (if_neg below) there
  apart := by
    rw [Environment.Apart, configFile_atRoot, dataPath_atRoot]
    decide

end World

/-- For every key that does not begin with a hyphen and every integer of 64 bits, or of 32 bits for
the kind of those, the words that set its text are read as that set, if it is not negative. The text
of a negative one is refused as an option that there is none of, and nothing happens. Behind the
word that ends the options, every integer is set. Wherever the program works, a run of the set
succeeds, however its words have been put, and the next run shows the text of the integer. -/
theorem every_integer_is_set_and_shown {kind : ValueKind} {width : Width}
    (integers : kind.width? = some width) (n : Word width) {key : String} (named : key ≠ "")
    (plain : key.toList.head? ≠ some '-') :
    let text := integerText n.val
    (0 ≤ n.val →
      Command.parse ["set", key, text, "--kind", kind.name] = .ok (.set key text kind false)) ∧
    (n.val < 0 → ∀ (w : World) (env : Environment),
      w.run env ["set", key, text, "--kind", kind.name] = (.usage .unknownArgument, w)) ∧
    Command.parse ["set", "--kind", kind.name, "--", key, text] =
      .ok (.set key text kind false) ∧
    ∀ (w : World) (env : Environment) (config : Config), w.Works env config →
      ∀ words, Command.parse words = .ok (.set key text kind false) →
        (w.run env words).1 = .done "" ∧
        ((w.run env words).2.run env ["get", key, "--kind", kind.name]).1 = .line text := by
  intro text
  have key_plain := option?_eq_none plain
  refine ⟨fun nonneg => ?_, fun neg w env => ?_, Command.parse_set_escaped key text, ?_⟩
  · exact Command.parse_set_plain key_plain (integerText_plain nonneg)
  · obtain ⟨c, cs, signed, digit⟩ := integerText_signed neg
    rw [World.run, Command.parse_set_signed key_plain signed digit]
  · intro w env config works words sets
    obtain ⟨⟨p, stored, read, encoded⟩, normal, exact⟩ := parse_integerText integers n
    exact works.shows named read encoded exact normal sets (Command.parse_get_plain key_plain)

/-- The least and the greatest integer of 64 bits are set and shown. -/
theorem ends_of_range_are_set_and_shown :
    let w := World.sample (.fresh [])
    let least := ["set", "--kind", "long", "--", "k", "-9223372036854775808"]
    let greatest := ["set", "k", "9223372036854775807", "--kind", "long"]
    (w.run World.atRoot least).1 = .done "" ∧
      ((w.run World.atRoot least).2.run World.atRoot ["get", "k", "--kind", "long"]).1 =
        .line "-9223372036854775808" ∧
      (w.run World.atRoot greatest).1 = .done "" ∧
      ((w.run World.atRoot greatest).2.run World.atRoot ["get", "k", "--kind", "long"]).1 =
        .line "9223372036854775807" ∧
      (w.run World.atRoot ["set", "k", "-1", "--kind", "long"]).1 = .usage .unknownArgument := by
  intro w least greatest
  let low : Word .int64 := ⟨-0x8000000000000000, by decide, by decide⟩
  let high : Word .int64 := ⟨0x7fffffffffffffff, by decide, by decide⟩
  let minusOne : Word .int64 := ⟨-1, by decide, by decide⟩
  have lowText : integerText low.val = "-9223372036854775808" := by decide +kernel
  have highText : integerText high.val = "9223372036854775807" := by decide +kernel
  have minusText : integerText minusOne.val = "-1" := by decide +kernel
  have named : "k" ≠ "" := by decide
  have plain : "k".toList.head? ≠ some '-' := by decide
  have long : ValueKind.long.width? = some .int64 := rfl
  obtain ⟨-, -, escaped, shows⟩ := every_integer_is_set_and_shown long low named plain
  obtain ⟨direct, -, -, shows'⟩ := every_integer_is_set_and_shown long high named plain
  obtain ⟨-, refused, -, -⟩ := every_integer_is_set_and_shown long minusOne named plain
  have set := shows w World.atRoot {} World.works_sample _ escaped
  have set' := shows' w World.atRoot {} World.works_sample _ (direct (by decide))
  have out := congrArg Prod.fst (refused (by decide) w World.atRoot)
  rw [lowText] at set
  rw [highText] at set'
  rw [minusText] at out
  exact ⟨set.1, set.2, set'.1, set'.2, out⟩

/-- Not every integer is set by its text alone: that of a negative one is taken for an option. -/
theorem negative_integer_is_no_plain_word :
    Command.parse ["set", "k", "-5", "--kind", "long"] = .error .unknownArgument ∧
      ¬ ∀ (n : Word .int64) (key : String), key ≠ "" → key.toList.head? ≠ some '-' →
        Command.parse ["set", key, integerText n.val, "--kind", "long"] =
          .ok (.set key (integerText n.val) .long false) := by
  have refused : Command.parse ["set", "k", "-5", "--kind", "long"] = .error .unknownArgument :=
    Command.parse_set_signed rfl (by decide : "-5".toList = '-' :: '5' :: []) (by decide) _
  refine ⟨refused, fun all => ?_⟩
  have text : integerText (-5) = "-5" := by decide +kernel
  have set := all ⟨-5, by decide, by decide⟩ "k" (by decide) (by decide)
  rw [text, refused] at set
  cases set

end Preferences
