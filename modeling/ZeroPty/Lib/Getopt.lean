import Mathlib.Algebra.Group.Nat.Defs
import Mathlib.Data.List.TakeWhile

/-!
# The options of a command line

What `getopt` and `getopt_long` of GNU make of the words of a command line: the options in the order they are found, and then the
operands, or an option that is not one. A word that is not an option is passed over and becomes an operand, unless the environment
asks for the order of POSIX, in which the options end before it; `--` ends them in any case. The options are of any type `ω`, and no
long option takes an argument.
-/

namespace Getopt

variable {ω : Type}

/-- A word of a command line. -/
abbrev Word : Type := List UInt8

/-- The options: by their character, with whether they take an argument, and by their name. -/
structure Spec (ω : Type) where
  short : UInt8 → Option (ω × Bool)
  long : List (Word × ω) := []

/-- An option that was found, and its argument. -/
abbrev Found (ω : Type) : Type := ω × Option Word

/-- The word `--`. -/
def dashes : Word := [45, 45]

/-- A word that starts with a dash and goes on after it. -/
def isOption (w : Word) : Bool := w.head? == some 45 && decide (1 < w.length)

/-- What a word with options comes to: options; options of which the last takes the next word as its argument; or options before
something that is not one. -/
inductive Scan (ω : Type) where
  | options (found : List (Found ω))
  | needs (found : List (Found ω)) (o : ω)
  | bad (found : List (Found ω))

/-- An option before the others of the word. -/
def Scan.cons (f : Found ω) : Scan ω → Scan ω
  | .options found => .options (f :: found)
  | .needs found o => .needs (f :: found) o
  | .bad found => .bad (f :: found)

/-- The characters after the dash. What follows an option with an argument in the same word is its argument. -/
def cluster (spec : Spec ω) : Word → Scan ω
  | [] => .options []
  | c :: rest =>
    match spec.short c with
    | none => .bad []
    | some (o, false) => (cluster spec rest).cons (o, none)
    | some (o, true) => if rest = [] then .needs [] o else .options [(o, some rest)]

/-- The long option of this name, or the only one whose name starts with it. -/
def longNamed (spec : Spec ω) (name : Word) : Option ω :=
  match spec.long.find? (·.1 == name) with
  | some o => some o.2
  | none =>
    match spec.long.filter fun o => name.isPrefixOf o.1 with
    | [o] => some o.2
    | _ => none

/-- The text after two dashes: a name, after which no argument may follow. -/
def longOption (spec : Spec ω) (text : Word) : Scan ω :=
  let name := text.takeWhile (· ≠ 61)
  match longNamed spec name with
  | none => .bad []
  | some o => if name = text then .options [(o, none)] else .bad []

/-- A word that starts with a dash. -/
def scanWord (spec : Spec ω) (w : Word) : Scan ω :=
  if w.take 2 = dashes then longOption spec (w.drop 2) else cluster spec w.tail

/-- The options and the operands; no operands when something is not an option, or lacks its argument. -/
def getopt (spec : Spec ω) (posixlyCorrect : Bool) : List Word → List (Found ω) × Option (List Word)
  | [] => ([], some [])
  | w :: rest =>
    if w = dashes then ([], some rest)
    else if isOption w then
      match scanWord spec w with
      | .bad found => (found, none)
      | .options found =>
        let r := getopt spec posixlyCorrect rest
        (found ++ r.1, r.2)
      | .needs found o =>
        match rest with
        | [] => (found, none)
        | arg :: rest =>
          let r := getopt spec posixlyCorrect rest
          (found ++ (o, some arg) :: r.1, r.2)
    else if posixlyCorrect then ([], some (w :: rest))
    else
      let r := getopt spec posixlyCorrect rest
      (r.1, r.2.map (w :: ·))

variable {spec : Spec ω} {posixlyCorrect : Bool}

/-- Nothing after `--` is an option. -/
theorem getopt_dashes (rest : List Word) : getopt spec posixlyCorrect (dashes :: rest) = ([], some rest) := by
  rw [getopt.eq_def]
  exact if_pos rfl

/-- An option whose argument is the next word, whatever that is. -/
theorem getopt_separate {c : UInt8} {o : ω} (hc : spec.short c = some (o, true)) (hdash : c ≠ 45) (arg : Word) (rest : List Word) :
    getopt spec posixlyCorrect ([45, c] :: arg :: rest) =
      ((o, some arg) :: (getopt spec posixlyCorrect rest).1, (getopt spec posixlyCorrect rest).2) := by
  have hne : [45, c] ≠ dashes := by
    intro h
    injection h with _ h
    injection h with h _
    exact hdash h
  have hscan : scanWord spec [45, c] = .needs [] o := by
    rw [scanWord, if_neg (by exact hne)]
    simp only [List.tail_cons, cluster, hc, if_true]
  rw [getopt.eq_def]
  simp only [if_neg hne]
  rw [if_pos (by rfl), hscan]
  rfl

/-- A long option by its whole name. -/
theorem getopt_long {name : Word} {o : ω} (hfind : spec.long.find? (·.1 == name) = some (name, o)) (hname : name ≠ [])
    (heq : 61 ∉ name) (rest : List Word) :
    getopt spec posixlyCorrect ((dashes ++ name) :: rest) =
      ((o, none) :: (getopt spec posixlyCorrect rest).1, (getopt spec posixlyCorrect rest).2) := by
  have hne : dashes ++ name ≠ dashes := by
    intro h
    exact hname (List.append_cancel_left (h.trans (List.append_nil dashes).symm))
  have htake : name.takeWhile (· ≠ 61) = name := by
    rw [List.takeWhile_eq_self_iff]
    intro c hc
    rw [decide_eq_true_iff]
    rintro rfl
    exact heq hc
  have hscan : scanWord spec (dashes ++ name) = .options [(o, none)] := by
    rw [scanWord, if_pos (by rfl)]
    change longOption spec name = _
    simp only [longOption, longNamed, htake, hfind, if_true]
  rw [getopt.eq_def]
  simp only [if_neg hne]
  rw [if_pos (by rfl), hscan]
  rfl

/-- The last word, when it is not an option. -/
theorem getopt_last {w : Word} (hw : isOption w = false) : getopt spec posixlyCorrect [w] = ([], some [w]) := by
  have hne : w ≠ dashes := by
    rintro rfl
    cases hw
  rw [getopt.eq_def]
  simp only [if_neg hne, hw, Bool.false_eq_true, if_false]
  cases posixlyCorrect <;> rfl

end Getopt
