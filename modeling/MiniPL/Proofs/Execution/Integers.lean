import MiniPL.Proofs.Execution.Loops
import MiniPL.Proofs.Program.Input
import MiniPL.Proofs.Text.Numerals

/-!
# Reading integers

A statement that reads into a variable of type `int` takes one line, or an end of input, and makes
an integer of it, or a halt (`Run.integer`). There are three cases, by the parts of which the line is
made (`MiniPL.Text.Numeral.Spells`): it is read, it could be an integer but its conversion is
refused, or it is none at all. The variable is set in the first case (`Stmt.exec_read_of_ok`), and
nothing is in the others (`Stmt.exec_read_of_error`).
-/

namespace MiniPL

variable {α : Type}

open Text (Numeral)

namespace Run

variable {line : String} {parts : Numeral}

theorem integer_of_clean (h : parts.Spells line) (hclean : parts.Clean)
    (hlength : parts.digits.length ≤ Text.digitLimit) (p : Pos) :
    integer (some line) p = .ok (.int parts.signed) := by
  simp only [integer, Numeral.ofLine?_eq_some_iff.2 h, Numeral.value_eq_ok hclean hlength]

theorem integer_of_refused (h : parts.Spells line)
    (hparts : ¬ (parts.Clean ∧ parts.digits.length ≤ Text.digitLimit)) (p : Pos) :
    ∃ c, integer (some line) p = .error (.conversion c) ∧
      (c = .notANumber line ∧ ¬ parts.Clean ∨
        c = .tooManyDigits parts.digits.length ∧ Text.digitLimit < parts.digits.length) := by
  obtain ⟨c, hvalue, hc⟩ := Numeral.exists_value_eq_error hparts line
  refine ⟨c, ?_, hc⟩
  simp only [integer, Numeral.ofLine?_eq_some_iff.2 h, hvalue]

/-- No input is no integer, and neither is a line that is not made of the parts of one. -/
theorem integer_of_not_spells {line? : Option String}
    (h : ∀ line ∈ line?, ∀ parts : Numeral, ¬ parts.Spells line) (p : Pos) :
    integer line? p = .error (.fault ⟨.notAnInteger, p⟩) := by
  cases line? with
  | none => rfl
  | some line => simp only [integer, Numeral.ofLine?_eq_none_iff.2 (h line rfl)]

/-- The value `v` is stored in `x`, of type `int`, and nothing else changes among the variables of
    `σ`. -/
structure Result.Stores (result : Result) (σ : Store VarType) (x : String) (v : Value) : Prop where
  goes_on : result.halt? = none
  names : result.run.store.names = σ.names
  find? (y : String) :
    result.run.store.find? y = if y = x then some ⟨.int, some v⟩ else σ.find? y

theorem stores_assign {r : Run} {x : String} (hx : r.store.ty? x = some .int) (v : Value) :
    (r.assign x v).Stores r.store x v := by
  obtain ⟨c, hc, -⟩ := Option.map_eq_some_iff.1 hx
  obtain ⟨s, hs, -⟩ := exists_assign_eq (Option.isSome_iff_exists.2 ⟨c, hc⟩) v
  have hnames : s.store.names = r.store.names := by
    rw [(assign_eq_goOn_iff.1 hs).2, Store.names_modify]
  rw [hs]
  exact ⟨rfl, hnames, find?_of_assign hx hs⟩

end Run

namespace Stmt

variable {x : String} {r : Run} {p : Pos}

/-- One line is taken, whatever is on it. -/
theorem takes_exec_read (x : String) (r : Run) (p : Pos) :
    ((read p x : Stmt α).exec r).run.lines = r.lines.tail ∧
      ((read p x : Stmt α).exec r).run.reads = r.reads + 1 := by
  have htakes := Run.takes_input x p (r.log (.executing (read p x : Stmt α).title p))
  have hreads : (r.log (.executing (read p x : Stmt α).title p)).reads = r.reads :=
    r.reads_log (by simp)
  exact ⟨htakes.lines.trans List.drop_one, htakes.reads.trans (congrArg (· + 1) hreads)⟩

/-- What is made of the line is stored, or ends the run. -/
theorem exists_exec_read_eq (hx : r.store.ty? x = some .int) (p : Pos) :
    ∃ next : Run, next.store = r.store ∧
      (read p x : Stmt α).exec r =
        next.withValue (Run.integer r.lines.head?.join p) (next.assign x) := by
  have hreceived : Run.received (r.store.ty? x) p r.lines.head?.join =
      Run.integer r.lines.head?.join p := by
    rw [Run.received, if_pos hx]
  rw [← hreceived, List.head?_eq_getElem?]
  exact ⟨((r.log (.executing (read p x : Stmt α).title p)).log .read).supply (r.lines.drop 1), rfl,
    (exec.eq_def ..).trans (Run.input_eq ..)⟩

theorem exec_read_of_ok (hx : r.store.ty? x = some .int) {v : Value}
    (h : Run.integer r.lines.head?.join p = .ok v) :
    ((read p x : Stmt α).exec r).Stores r.store x v := by
  obtain ⟨next, hstore, hexec⟩ := exists_exec_read_eq (α := α) hx p
  rw [hexec, h, ← hstore]
  exact Run.stores_assign (hstore ▸ hx) v

theorem exec_read_of_error (hx : r.store.ty? x = some .int) {halt : Halt}
    (h : Run.integer r.lines.head?.join p = .error halt) :
    ((read p x : Stmt α).exec r).halt? = some halt ∧
      ((read p x : Stmt α).exec r).run.store = r.store := by
  obtain ⟨next, hstore, hexec⟩ := exists_exec_read_eq (α := α) hx p
  rw [hexec, h]
  exact ⟨rfl, hstore⟩

/-- **Reading integers.** Into a variable of type `int`, one line or end of input is read. If the
    line is made of blanks, a sign that may be missing, digits, and blanks, the integer is stored,
    unless there are separators or too many digits: then its conversion is refused. Every other line
    and the end of input is no integer. The variables stay as they are if the run ends.

    So an integer that can be written is read again from its text, whatever blanks there are around
    it but separators. -/
theorem exec_read_int (hx : r.store.ty? x = some .int) (p : Pos) :
    let result := (read p x : Stmt α).exec r
    let line? := r.lines.head?.join
    (result.run.lines = r.lines.tail ∧ result.run.reads = r.reads + 1) ∧
      (result.halt? ≠ none → result.run.store = r.store) ∧
      (∀ line ∈ line?, ∀ parts : Numeral, parts.Spells line →
        (parts.Clean ∧ parts.digits.length ≤ Text.digitLimit →
          result.Stores r.store x (.int parts.signed)) ∧
        (¬ (parts.Clean ∧ parts.digits.length ≤ Text.digitLimit) →
          ∃ c, result.halt? = some (.conversion c) ∧
            (c = .notANumber line ∧ ¬ parts.Clean ∨
              c = .tooManyDigits parts.digits.length ∧
                Text.digitLimit < parts.digits.length))) ∧
      ((∀ line ∈ line?, ∀ parts : Numeral, ¬ parts.Spells line) →
        result.halt? = some (.fault ⟨.notAnInteger, p⟩)) ∧
      ∀ n : Int, (Nat.toDigits 10 n.natAbs).length ≤ Text.digitLimit →
        ∃ text, (∀ q : Run, q.write (.int n) = (q.log (.wrote text)).goOn) ∧
          ∀ before after : String,
            (∀ c ∈ before.toList ++ after.toList, Text.isBlank c ∧ Text.isSeparator c = false) →
            before ++ text ++ after ∈ line? → result.Stores r.store x (.int n) := by
  intro result line?
  have hread {line : String} {parts : Numeral} (hline : line ∈ line?) (h : parts.Spells line)
      (hparts : parts.Clean ∧ parts.digits.length ≤ Text.digitLimit) :
      result.Stores r.store x (.int parts.signed) :=
    exec_read_of_ok hx ((congrArg (Run.integer · p) hline).trans
      (Run.integer_of_clean h hparts.1 hparts.2 p))
  refine ⟨takes_exec_read x r p, ?failure, fun line hline parts h => ⟨hread hline h, ?refused⟩,
    ?other, ?written⟩
  case failure =>
    intro hhalt
    cases h : Run.integer line? p with
    | ok v => exact absurd (exec_read_of_ok hx h).goes_on hhalt
    | error halt => exact (exec_read_of_error hx h).2
  case refused =>
    intro hparts
    obtain ⟨c, hc, hwhy⟩ := Run.integer_of_refused h hparts p
    exact ⟨c, (exec_read_of_error hx ((congrArg (Run.integer · p) hline).trans hc)).1, hwhy⟩
  case other =>
    intro h
    exact (exec_read_of_error hx (Run.integer_of_not_spells h p)).1
  case written =>
    refine fun n hn => ⟨toString n, fun q => ?_, fun before after hblank hline => ?_⟩
    · rw [Run.write, Value.write, Text.writeInt_eq_ok hn]
    · obtain ⟨hbefore, hafter⟩ := List.forall_mem_append.1 hblank
      have hspells := Numeral.spells_around n (fun c hc => (hbefore c hc).1)
        fun c hc => (hafter c hc).1
      rw [← Numeral.signed_around before.toList n after.toList]
      exact hread hline hspells ⟨fun c hc => (hblank c hc).2, hn⟩

/-- Leading zeros, and an em space after the number. -/
theorem exec_read_int_of_zeros :
    let r : Run := .start (Store.empty.declare "n" .int none) [some "\t-007\u2003", some "8"]
    let result := (read ⟨1, 6⟩ "n" : Stmt Unit).exec r
    r.store.ty? "n" = some .int ∧ result.run.lines = [some "8"] ∧
      result.run.store.value? "n" = some (.int (-7)) := by
  intro r result
  have hx : r.store.ty? "n" = some .int := by decide
  obtain ⟨⟨hlines, -⟩, -, hread, -⟩ := exec_read_int (α := Unit) hx ⟨1, 6⟩
  have hspells : Numeral.Spells ⟨['\t'], true, ['0', '0', '7'], ['\u2003']⟩ "\t-007\u2003" :=
    ⟨List.all_eq_true.1 rfl, by decide, List.all_eq_true.1 rfl, List.all_eq_true.1 rfl,
      ['-'], .minus, by decide⟩
  have hstores := (hread _ rfl _ hspells).1 ⟨by decide, by decide⟩
  exact ⟨hx, hlines, congrArg (Option.bind · Cell.value) (hstores.find? "n")⟩

end Stmt

end MiniPL
