import Mathlib
/- Typed UUID identifiers and their canonical text. -/

namespace LatteCode

/-- A 128-bit UUID value. -/
structure Uuid where
  bits : BitVec 128
deriving DecidableEq, Repr

def hexDigit (n : Nat) : Char :=
  if n < 10 then Char.ofNat (48 + n) else Char.ofNat (87 + n)

/-- The low `count` hexadecimal digits of a number, most significant first. -/
def hexDigits : Nat → Nat → List Char
  | 0, _ => []
  | count + 1, n => hexDigits count (n / 16) ++ [hexDigit (n % 16)]

/-- The hyphenated lowercase form written by `Display`. -/
def Uuid.toString (id : Uuid) : String :=
  let digits := hexDigits 32 id.bits.toNat
  String.ofList (digits.take 8 ++ '-' :: ((digits.drop 8).take 4 ++ '-' :: ((digits.drop 12).take 4 ++
    '-' :: ((digits.drop 16).take 4 ++ '-' :: digits.drop 20))))

structure TurnId where
  uuid : Uuid
deriving DecidableEq, Repr

structure SessionId where
  uuid : Uuid
deriving DecidableEq, Repr

structure SessionCommandId where
  uuid : Uuid
deriving DecidableEq, Repr

structure TranscriptEntryId where
  uuid : Uuid
deriving DecidableEq, Repr

def TurnId.toString (id : TurnId) : String := id.uuid.toString
def SessionId.toString (id : SessionId) : String := id.uuid.toString
def SessionCommandId.toString (id : SessionCommandId) : String := id.uuid.toString

@[simp] theorem hexDigits_length (count n : Nat) : (hexDigits count n).length = count := by
  induction count generalizing n with
  | zero => rfl
  | succ count ih => rw [hexDigits, List.length_append, ih, List.length_singleton]

theorem hexDigit_injective {m n : Nat} (hm : m < 16) (hn : n < 16) (same : hexDigit m = hexDigit n) :
    m = n := by
  have table : ∀ a : Fin 16, ∀ b : Fin 16, hexDigit a = hexDigit b → a = b := by decide
  exact congrArg Fin.val (table ⟨m, hm⟩ ⟨n, hn⟩ same)

theorem hexDigits_injective {count m n : Nat} (hm : m < 16 ^ count) (hn : n < 16 ^ count)
    (same : hexDigits count m = hexDigits count n) : m = n := by
  induction count generalizing m n with
  | zero => omega
  | succ count ih =>
      rw [hexDigits, hexDigits] at same
      obtain ⟨high, low⟩ := List.append_inj' same rfl
      have quotients : m / 16 = n / 16 := by
        refine ih ?_ ?_ high
        · exact Nat.div_lt_of_lt_mul (by rwa [Nat.pow_succ, Nat.mul_comm] at hm)
        · exact Nat.div_lt_of_lt_mul (by rwa [Nat.pow_succ, Nat.mul_comm] at hn)
      have remainders : m % 16 = n % 16 :=
        hexDigit_injective (Nat.mod_lt _ (by decide)) (Nat.mod_lt _ (by decide)) (List.head_eq_of_cons_eq low)
      rw [← Nat.div_add_mod m 16, ← Nat.div_add_mod n 16, quotients, remainders]

/-- Distinct UUIDs print differently, so text keys identify rows. -/
theorem Uuid.toString_injective {a b : Uuid} (same : a.toString = b.toString) : a = b := by
  unfold Uuid.toString at same
  have lists := String.ofList_injective same
  obtain ⟨h1, t1⟩ := List.append_inj lists (by simp)
  obtain ⟨h2, t2⟩ := List.append_inj (List.cons.inj t1).2 (by simp)
  obtain ⟨h3, t3⟩ := List.append_inj (List.cons.inj t2).2 (by simp)
  obtain ⟨h4, t4⟩ := List.append_inj (List.cons.inj t3).2 (by simp)
  have h5 := (List.cons.inj t4).2
  have rebuild : ∀ digits : List Char, digits = digits.take 8 ++ ((digits.drop 8).take 4 ++
      ((digits.drop 12).take 4 ++ ((digits.drop 16).take 4 ++ digits.drop 20))) := by
    intro digits
    have step : ∀ i k : Nat, (digits.drop i).take k ++ digits.drop (i + k) = digits.drop i := by
      intro i k
      rw [← List.drop_drop, List.take_append_drop]
    rw [step 16 4, step 12 4, step 8 4, List.take_append_drop]
  have digits : hexDigits 32 a.bits.toNat = hexDigits 32 b.bits.toNat := by
    rw [rebuild (hexDigits 32 a.bits.toNat), h1, h2, h3, h4, h5, ← rebuild]
  have bits : a.bits.toNat = b.bits.toNat := hexDigits_injective a.bits.isLt b.bits.isLt digits
  cases a
  cases b
  simp only [Uuid.mk.injEq]
  exact BitVec.eq_of_toNat_eq bits

theorem TurnId.toString_injective {a b : TurnId} (same : a.toString = b.toString) : a = b := by
  cases a
  cases b
  exact congrArg TurnId.mk (Uuid.toString_injective same)

theorem SessionId.toString_injective {a b : SessionId} (same : a.toString = b.toString) : a = b := by
  cases a
  cases b
  exact congrArg SessionId.mk (Uuid.toString_injective same)

theorem SessionCommandId.toString_injective {a b : SessionCommandId}
    (same : a.toString = b.toString) : a = b := by
  cases a
  cases b
  exact congrArg SessionCommandId.mk (Uuid.toString_injective same)

end LatteCode
