import Mathlib
/- The escapes in JSON text, and the quotes that stand outside of them. -/

namespace Escapes

/-- What the next character belongs to; of the four digits behind `\u`, `left` come after the next one. -/
inductive Mode where
  | plain
  | escape
  | hex (left : Nat)
deriving DecidableEq

/-- The characters that an escape of one character can have. -/
def shortEscape (c : Char) : Bool := ['"', '\\', '/', 'b', 'f', 'n', 'r', 't'].contains c

def hexDigit (c : Char) : Bool := ('0' ≤ c && c ≤ '9') || ('a' ≤ c && c ≤ 'f') || ('A' ≤ c && c ≤ 'F')

/-- Where the reading of a text ends, and how many quotes are no escapes; or why it does not. -/
inductive Scan where
  | ends (mode : Mode) (quotes : Nat)
  | wrongEscape
  | other
deriving DecidableEq

def Scan.more (quotes : Nat) : Scan → Scan
  | ends mode found => ends mode (quotes + found)
  | bad => bad

def afterDigit : Nat → Mode
  | 0 => .plain
  | left + 1 => .hex left

/-- Escapes of code points stay below `U+0100`, and there are no raw controls. -/
def scan : Mode → List Char → Scan
  | mode, [] => .ends mode 0
  | .plain, c :: rest =>
      if c = '\\' then scan .escape rest
      else if c = '"' then (scan .plain rest).more 1
      else if c.val < 0x20 then .other
      else scan .plain rest
  | .escape, c :: rest =>
      if shortEscape c then scan .plain rest else if c = 'u' then scan (.hex 3) rest else .wrongEscape
  | .hex left, c :: rest =>
      if hexDigit c ∧ (2 ≤ left → c = '0') then scan (afterDigit left) rest else .other

attribute [local grind =] scan

/-- No character of an escape but its backslash. -/
def outsider (c : Char) : Bool := !shortEscape c && c ≠ 'u' && !hexDigit c

/-- A character that stands for itself. -/
def ordinary (c : Char) : Bool := c ≠ '\\' && c ≠ '"' && 0x20 ≤ c.val

variable {mode last : Mode} {text more : List Char} {c : Char} {quotes total : Nat}

@[simp] theorem Scan.more_zero (s : Scan) : s.more 0 = s := by
  cases s with
  | ends mode quotes => exact congrArg (ends mode) (Nat.zero_add quotes)
  | wrongEscape | other => rfl

theorem Scan.more_more (s : Scan) (a b : Nat) : (s.more a).more b = s.more (b + a) := by
  cases s with
  | ends mode quotes => exact congrArg (ends mode) (Nat.add_assoc b a quotes).symm
  | wrongEscape | other => rfl

theorem Scan.more_ends {s : Scan} (shape : s.more quotes = .ends last total) :
    ∃ rest, s = .ends last rest ∧ total = quotes + rest := by
  cases s with
  | ends mode found =>
      cases shape
      exact ⟨found, rfl, rfl⟩
  | wrongEscape | other => cases shape

/-- What is read first decides how the rest is read. -/
theorem scan_append : scan mode (text ++ more) = match scan mode text with
    | .ends next quotes => (scan next more).more quotes
    | bad => bad := by
  induction text generalizing mode with
  | nil => exact (Scan.more_zero _).symm
  | cons c text ih =>
      cases mode with
      | plain =>
          rw [List.cons_append, scan, scan]
          split
          case isTrue => exact ih
          case isFalse =>
            split
            case isTrue =>
              rw [ih]
              cases scan .plain text with
              | ends next quotes => exact Scan.more_more _ quotes 1
              | wrongEscape | other => rfl
            case isFalse =>
              split
              case isTrue => rfl
              case isFalse => exact ih
      | escape =>
          rw [List.cons_append, scan, scan]
          split
          case isTrue => exact ih
          case isFalse =>
            split
            case isTrue => exact ih
            case isFalse => rfl
      | hex left =>
          rw [List.cons_append, scan, scan]
          split
          case isTrue => exact ih
          case isFalse => rfl

theorem scan_append_ends (first : scan mode text = .ends last quotes) :
    scan mode (text ++ more) = (scan last more).more quotes := by
  rw [scan_append, first]

/-- A text that is read to its end is so in each of its parts. -/
theorem scan_split (whole : scan mode (text ++ more) = .ends last total) : ∃ next quotes rest,
    scan mode text = .ends next quotes ∧ scan next more = .ends last rest ∧ total = quotes + rest := by
  rw [scan_append] at whole
  cases first : scan mode text with
  | ends next quotes =>
      rw [first] at whole
      obtain ⟨rest, later, sum⟩ := Scan.more_ends whole
      exact ⟨next, quotes, rest, rfl, later, sum⟩
  | wrongEscape | other =>
      rw [first] at whole
      cases whole

theorem scan_ordinary (each : ∀ c ∈ text, ordinary c = true) : scan .plain text = .ends .plain 0 := by
  induction text with
  | nil => rfl
  | cons c text ih =>
      obtain ⟨here, later⟩ := List.forall_mem_cons.mp each
      simp only [ordinary, Bool.and_eq_true, decide_eq_true_eq] at here
      rw [scan, if_neg here.1.1, if_neg here.1.2, if_neg (UInt32.not_lt.mpr here.2)]
      exact ih later

/-- An outsider is read between escapes only. -/
theorem scan_outsider (free : outsider c = true) (read : scan mode (c :: text) = .ends last quotes) : mode = .plain := by
  simp only [outsider, Bool.and_eq_true, Bool.not_eq_true', decide_eq_true_eq] at free
  cases mode with
  | plain => rfl
  | escape =>
      rw [scan, if_neg (by rw [free.1.1]; exact Bool.false_ne_true), if_neg free.1.2] at read
      cases read
  | hex left =>
      rw [scan, if_neg (fun both => Bool.false_ne_true (free.2.symm.trans both.1))] at read
      cases read

/-- In front of an outsider no escape is open. -/
theorem scan_until (free : outsider c = true) (read : scan mode (text ++ c :: more) = .ends last total) :
    ∃ quotes, scan mode text = .ends .plain quotes := by
  obtain ⟨next, quotes, _, first, later, _⟩ := scan_split read
  obtain rfl := scan_outsider free later
  exact ⟨quotes, first⟩

/-- Text without backslashes and quotes is read as it stands. -/
theorem scan_straight (straight : ∀ c ∈ text, c ≠ '\\' ∧ c ≠ '"') (read : scan .plain text = .ends last quotes) :
    last = .plain ∧ quotes = 0 := by
  induction text with
  | nil =>
      cases read
      exact ⟨rfl, rfl⟩
  | cons c text ih =>
      obtain ⟨here, later⟩ := List.forall_mem_cons.mp straight
      rw [scan, if_neg here.1, if_neg here.2] at read
      split at read
      case isTrue => cases read
      case isFalse => exact ih later read

theorem outsider_straight (free : outsider c = true) : c ≠ '\\' ∧ c ≠ '"' := by
  constructor
  · rintro rfl
    exact absurd free (by decide)
  · rintro rfl
    exact absurd free (by decide)

theorem scan_behind (free : outsider c = true) (read : scan mode (text ++ [c]) = .ends last quotes) : last = .plain := by
  obtain ⟨next, _, _, _, later, _⟩ := scan_split read
  obtain rfl := scan_outsider free later
  refine (scan_straight ?_ later).1
  intro other held
  rw [List.mem_singleton.mp held]
  exact outsider_straight free

/-- Without a quote there is none to count. -/
theorem scan_quoteless (clear : '"' ∉ text) (read : scan mode text = .ends last quotes) : quotes = 0 := by
  induction text generalizing mode with
  | nil =>
      cases read
      rfl
  | cons c text ih =>
      rw [List.mem_cons, not_or] at clear
      cases mode with
      | plain =>
          rw [scan] at read
          split at read
          case isTrue => exact ih clear.2 read
          case isFalse =>
            rw [if_neg fun same => clear.1 same.symm] at read
            split at read
            case isTrue => cases read
            case isFalse => exact ih clear.2 read
      | escape =>
          rw [scan] at read
          split at read
          case isTrue => exact ih clear.2 read
          case isFalse =>
            split at read
            case isTrue => exact ih clear.2 read
            case isFalse => cases read
      | hex left =>
          rw [scan] at read
          split at read
          case isTrue => exact ih clear.2 read
          case isFalse => cases read

/-- Behind a quote, escaped or not, no escape goes on. -/
theorem scan_quote (read : scan mode (text ++ ['"']) = .ends last quotes) : last = .plain := by
  obtain ⟨next, _, _, _, later, _⟩ := scan_split read
  cases next with
  | plain =>
      cases later
      rfl
  | escape =>
      cases later
      rfl
  | hex left =>
      rw [scan, if_neg (fun both => absurd both.1 (by decide))] at later
      cases later

/-- Inside the digits of a code point a digit or the `u` has come before. -/
theorem scan_hex {left : Nat} (read : scan .plain text = .ends (.hex left) quotes) :
    ∃ c, text.getLast? = some c ∧ (c = 'u' ∨ hexDigit c = true) := by
  rcases List.eq_nil_or_concat text with rfl | ⟨before, c, rfl⟩
  · cases read
  · rw [List.concat_eq_append] at read ⊢
    refine ⟨c, List.getLast?_concat, ?_⟩
    obtain ⟨next, _, _, _, later, _⟩ := scan_split read
    cases next with
    | plain =>
        rw [scan] at later
        split at later
        case isTrue => cases later
        case isFalse =>
          split at later
          case isTrue => cases later
          case isFalse => split at later <;> cases later
    | escape =>
        rw [scan] at later
        split at later
        case isTrue => cases later
        case isFalse =>
          split at later
          case isTrue same => exact .inl same
          case isFalse => cases later
    | hex before =>
        rw [scan] at later
        split at later
        case isTrue digit => exact .inr digit.1
        case isFalse => cases later

end Escapes
