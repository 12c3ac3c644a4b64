import LineScript.Proofs.Decimal
import LineScript.RunOptions
import Mathlib.Algebra.Group.Nat.Defs
import Mathlib.Data.List.Forall2
import Mathlib.Data.List.TakeWhile

/-!
What run options mean. Every option means exactly one thing, whatever stands around it: a memory
size, a key that is not known, or an error. A list of options comes to its first error or else to
its last memory size, and it warns of the unknown keys before the first error.
-/

namespace LineScript
namespace RunOptions

/-- The option consists of the key, its first equals sign and the value. -/
def Splits (option key value : String) : Prop :=
  option.toList = key.toList ++ '=' :: value.toList ∧ '=' ∉ key.toList

/-- The value is the numeral of a number of cells that memory can have. -/
def Sizes (value : String) (cells : Nat) : Prop :=
  Numeral.Unsigned value.toList cells ∧ 1 ≤ cells ∧ cells ≤ 2 ^ 28

inductive Meaning
  | size (cells : Nat)
  | unknown (key : String)
  | faulty (error : OptionError)

/-- What an option means. -/
inductive Means (option : String) : Meaning → Prop
  | size {value : String} {cells : Nat} (splits : Splits option "memory" value)
      (sizes : Sizes value cells) : Means option (.size cells)
  | invalid {value : String} (splits : Splits option "memory" value)
      (sizeless : ∀ cells, ¬ Sizes value cells) : Means option (.faulty (.invalidMemory value))
  | unknown {key value : String} (splits : Splits option key value) (other : key ≠ "memory") :
      Means option (.unknown key)
  | malformed (plain : '=' ∉ option.toList) : Means option (.faulty (.malformedOption option))

namespace Meaning

def size? : Meaning → Option Nat
  | .size cells => some cells
  | _ => none

def key? : Meaning → Option String
  | .unknown key => some key
  | _ => none

def error? : Meaning → Option OptionError
  | .faulty error => some error
  | _ => none

/-- What is reported when an option of that meaning has been read. -/
def notice? : Meaning → Option Notice
  | .size cells => some (.memorySet cells)
  | .unknown key => some (.unknownOption key)
  | .faulty _ => none

/-- The meaning that is found by reading. -/
def ofOption (option : String) : Meaning :=
  match splitOption? option with
  | none => .faulty (.malformedOption option)
  | some (key, value) =>
      if key = "memory" then
        match memorySize? value with
        | some cells => .size cells
        | none => .faulty (.invalidMemory value)
      else .unknown key

end Meaning

variable {option key value : String} {meaning : Meaning}

theorem splitOption?_of_splits (splits : Splits option key value) :
    splitOption? option = some (key, value) := by
  obtain ⟨split, first⟩ := splits
  have front : ∀ c ∈ key.toList, decide (c ≠ '=') = true := by
    intro c member
    exact decide_eq_true fun sign => first (sign ▸ member)
  rw [splitOption?, split, List.dropWhile_append_of_pos front, List.takeWhile_append_of_pos front]
  simp

theorem splitOption?_of_notMem (plain : '=' ∉ option.toList) : splitOption? option = none := by
  have all : option.toList.dropWhile (· ≠ '=') = [] := by
    rw [List.dropWhile_eq_nil_iff]
    intro c member
    exact decide_eq_true fun sign => plain (sign ▸ member)
  rw [splitOption?, all]

theorem exists_splits (member : '=' ∈ option.toList) : ∃ key value, Splits option key value := by
  obtain ⟨front, back, split, first⟩ := List.eq_append_cons_of_mem member
  exact ⟨.ofList front, .ofList back, by simpa [Splits] using ⟨split, first⟩⟩

theorem memorySize?_eq_some_iff (value : String) (cells : Nat) :
    memorySize? value = some cells ↔ Sizes value cells := by
  rw [memorySize?, Option.filter_eq_some_iff, Numeral.unsigned?_eq_some_iff, decide_eq_true_eq]
  rfl

theorem memorySize?_eq_none_iff (value : String) :
    memorySize? value = none ↔ ∀ cells, ¬ Sizes value cells := by
  simp only [Option.eq_none_iff_forall_ne_some, ne_eq, memorySize?_eq_some_iff]

theorem Means.eq_ofOption (means : Means option meaning) : meaning = .ofOption option := by
  cases means with
  | size splits sizes =>
      rw [Meaning.ofOption, splitOption?_of_splits splits]
      simp only [(memorySize?_eq_some_iff _ _).mpr sizes, if_true]
  | invalid splits sizeless =>
      rw [Meaning.ofOption, splitOption?_of_splits splits]
      simp only [(memorySize?_eq_none_iff _).mpr sizeless, if_true]
  | unknown splits other =>
      rw [Meaning.ofOption, splitOption?_of_splits splits]
      simp only [if_neg other]
  | malformed plain => rw [Meaning.ofOption, splitOption?_of_notMem plain]

theorem exists_means (option : String) : ∃ meaning, Means option meaning := by
  by_cases member : '=' ∈ option.toList
  · obtain ⟨key, value, splits⟩ := exists_splits member
    by_cases known : key = "memory"
    · subst known
      by_cases sized : ∃ cells, Sizes value cells
      · obtain ⟨cells, sizes⟩ := sized
        exact ⟨_, .size splits sizes⟩
      · exact ⟨_, .invalid splits (not_exists.mp sized)⟩
    · exact ⟨_, .unknown splits known⟩
  · exact ⟨_, .malformed member⟩

/-- Reading finds the one thing that an option means. -/
theorem means_iff : Means option meaning ↔ meaning = .ofOption option := by
  refine ⟨Means.eq_ofOption, ?_⟩
  -- The option means something, which by the other direction is what is read.
  rintro rfl
  obtain ⟨meaning, means⟩ := exists_means option
  rwa [means.eq_ofOption] at means

theorem forall₂_means_iff (options : List String) (meanings : List Meaning) :
    List.Forall₂ Means options meanings ↔ meanings = options.map .ofOption := by
  induction options generalizing meanings with
  | nil => rw [List.forall₂_nil_left_iff, List.map_nil]
  | cons option options ih =>
      cases meanings with
      | nil => simp
      | cons meaning meanings =>
          rw [List.forall₂_cons, means_iff, ih, List.map_cons, List.cons.injEq]

theorem Splits.unique {key' value' : String} (splits : Splits option key value)
    (splits' : Splits option key' value') : key = key' ∧ value = value' := by
  have same := (splitOption?_of_splits splits).symm.trans (splitOption?_of_splits splits')
  exact Prod.mk.inj (Option.some.inj same)

theorem Splits.mem (splits : Splits option key value) : '=' ∈ option.toList := by
  rw [splits.1]
  exact List.mem_append_right _ List.mem_cons_self

/-- An option is in order when it has an equals sign, and a size if it is about memory. -/
theorem Means.error?_eq_none_iff (means : Means option meaning) :
    meaning.error? = none ↔ '=' ∈ option.toList ∧
      ∀ value, Splits option "memory" value → ∃ cells, Sizes value cells := by
  cases means with
  | size splits sizes =>
      refine iff_of_true rfl ⟨splits.mem, fun other splits' => ?_⟩
      rw [← (splits.unique splits').2]
      exact ⟨_, sizes⟩
  | invalid splits sizeless =>
      refine iff_of_false nofun fun ⟨_, sized⟩ => ?_
      obtain ⟨cells, sizes⟩ := sized _ splits
      exact sizeless cells sizes
  | unknown splits other =>
      exact iff_of_true rfl
        ⟨splits.mem, fun value splits' => absurd (splits.unique splits').1 other⟩
  | malformed plain => exact iff_of_false nofun fun ⟨member, _⟩ => plain member

namespace Meaning

/-- What reading an option of the meaning comes to, when the options before it have chosen some. -/
def apply (chosen : RunOptions) : Meaning → Except OptionError (RunOptions × Notice)
  | .size cells => .ok (⟨cells⟩, .memorySet cells)
  | .unknown key => .ok (chosen, .unknownOption key)
  | .faulty error => .error error

/-- The first error, or else the last memory size. -/
def outcome (start : Nat) (meanings : List Meaning) : Except OptionError RunOptions :=
  match meanings.findSome? error? with
  | some error => .error error
  | none => .ok ⟨(meanings.filterMap size?).getLast?.getD start⟩

/-- The meanings before the first error. -/
def beforeError (meanings : List Meaning) : List Meaning :=
  meanings.takeWhile (·.error?.isNone)

theorem outcome_size_cons (start cells : Nat) (meanings : List Meaning) :
    outcome start (.size cells :: meanings) = outcome cells meanings := by
  have last : ((Meaning.size cells :: meanings).filterMap size?).getLast?.getD start =
      (meanings.filterMap size?).getLast?.getD cells := by
    rw [List.filterMap_cons_some (f := size?) rfl, List.getLast?_cons, Option.getD_some]
  rw [outcome, last]
  rfl

theorem exists_outcome_eq_ok_iff (start : Nat) (meanings : List Meaning) :
    (∃ chosen, outcome start meanings = .ok chosen) ↔
      ∀ meaning ∈ meanings, meaning.error? = none := by
  rw [← List.findSome?_eq_none_iff, outcome]
  cases meanings.findSome? error? with
  | none => exact iff_of_true ⟨_, rfl⟩ rfl
  | some error => exact iff_of_false nofun nofun

theorem warnings_notices (meanings : List Meaning) :
    Notice.warnings (meanings.filterMap notice?) =
      (meanings.filterMap key?).map ("ignoring unknown option " ++ ·) := by
  induction meanings with
  | nil => rfl
  | cons meaning meanings ih =>
      cases meaning with
      | unknown key => exact congrArg (_ :: ·) ih
      | size _ | faulty _ => exact ih

end Meaning

theorem readOption_eq (chosen : RunOptions) (option : String) :
    readOption chosen option = (Meaning.ofOption option).apply chosen := by
  rw [readOption, Meaning.ofOption]
  cases splitOption? option with
  | none => rfl
  | some split =>
      obtain ⟨key, value⟩ := split
      dsimp only
      split
      · cases memorySize? value with
        | none => rfl
        | some cells => rfl
      · rfl

theorem readFrom_eq (options : List String) (chosen : RunOptions) (notices : List Notice) :
    readFrom chosen notices options =
      (Meaning.outcome chosen.memory (options.map .ofOption), notices.reverse ++
        (Meaning.beforeError (options.map .ofOption)).filterMap Meaning.notice?) := by
  -- A size that is read becomes the one that counts if no other comes, so the start is not fixed.
  induction options generalizing chosen notices with
  | nil => simp [readFrom, Meaning.outcome, Meaning.beforeError]
  | cons option options ih =>
      rw [readFrom, readOption_eq, List.map_cons]
      cases Meaning.ofOption option with
      | size cells =>
          refine (ih ⟨cells⟩ (.memorySet cells :: notices)).trans ?_
          rw [Meaning.outcome_size_cons, List.reverse_cons, List.append_assoc]
          rfl
      | unknown key =>
          refine (ih chosen (.unknownOption key :: notices)).trans ?_
          rw [List.reverse_cons, List.append_assoc]
          rfl
      | faulty error => exact congrArg (Prod.mk _) (List.append_nil _).symm

/-- Options are read from left to right: they succeed when each of them is in order, and then the
last memory size counts, or that of a run without options. Else the first faulty option is the
error. The keys that are not known are warned of in order, as far as options are read. -/
theorem readAll_by_meaning (options : List String) :
    ∃ meanings, (∀ others, List.Forall₂ Means options others ↔ others = meanings) ∧
      ((∃ chosen, (readAll options).1 = .ok chosen) ↔
        ∀ option ∈ options, '=' ∈ option.toList ∧
          ∀ value, Splits option "memory" value → ∃ cells, Sizes value cells) ∧
      (readAll options).1 = Meaning.outcome 65536 meanings ∧
      Notice.warnings (readAll options).2 =
        ((Meaning.beforeError meanings).filterMap Meaning.key?).map
          ("ignoring unknown option " ++ ·) := by
  have read : readAll options =
      (Meaning.outcome 65536 (options.map .ofOption),
        (Meaning.beforeError (options.map .ofOption)).filterMap Meaning.notice?) :=
    readFrom_eq options default []
  refine ⟨options.map .ofOption, forall₂_means_iff options, ?_, congrArg Prod.fst read, ?_⟩
  · rw [read, Meaning.exists_outcome_eq_ok_iff, List.forall_mem_map]
    exact forall₂_congr fun option _ => (means_iff.mpr rfl).error?_eq_none_iff
  · rw [read]
    exact Meaning.warnings_notices _

end RunOptions
end LineScript
