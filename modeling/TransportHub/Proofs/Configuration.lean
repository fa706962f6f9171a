import TransportHub.Config
/-!
Configuration: what an environment makes of a configuration, for all byte strings it may hold, and how the threads of a
configuration are told apart. A size is taken whole or not at all; its bytes are counted in a word.
-/

set_option autoImplicit false

namespace TransportHub

namespace Text

def Digits (digits : List Char) (n : Nat) : Prop :=
  digits ≠ [] ∧ (∀ c ∈ digits, c.isDigit = true) ∧ Nat.ofDigitChars 10 digits 0 = n ∧ n < UInt64.size

def Writes (text : List Char) (n : Nat) : Prop := ∃ digits, (text = digits ∨ text = '+' :: digits) ∧ Digits digits n

def numeral (zeros n : Nat) : List Char := List.replicate zeros '0' ++ (toString n).toList

variable {text digits : List Char} {n value : Nat} {c : Char}

theorem digits?_eq_some_iff : digits? value digits = some n ↔
    (∀ c ∈ digits, c.isDigit = true) ∧ Nat.ofDigitChars 10 digits value = n := by
  induction digits generalizing value with
  | nil => simp [digits?]
  | cons c rest ih =>
      rw [digits?, Nat.ofDigitChars_cons, List.forall_mem_cons, Nat.mul_comm 10 value]
      cases c.isDigit with
      | true => simp [ih]
      | false => simp

theorem unsigned_eq_some_iff :
    (if digits.isEmpty then none else (digits? 0 digits).filter (· < UInt64.size)) = some n ↔ Digits digits n := by
  cases digits with
  | nil => simp [Digits]
  | cons c rest =>
      rw [if_neg (by simp), Option.filter_eq_some_iff, digits?_eq_some_iff]
      simp [Digits, and_assoc]

-- No digit is a plus sign, so a sign is not taken for a digit nor a digit for a sign.
theorem writes_plus : Writes ('+' :: digits) n ↔ Digits digits n := by
  refine ⟨?_, fun written => ⟨digits, .inr rfl, written⟩⟩
  rintro ⟨_, rfl | signed, written⟩
  · have sign := written.2.1 '+' (List.mem_cons_self ..)
    cases sign
  · cases signed
    exact written

theorem writes_plain (unsigned : ∀ rest, text ≠ '+' :: rest) : Writes text n ↔ Digits text n := by
  refine ⟨?_, fun written => ⟨text, .inl rfl, written⟩⟩
  rintro ⟨_, rfl | signed, written⟩
  · exact written
  · exact absurd signed (unsigned _)

theorem size?_eq_some_iff : size? text = some n ↔ Writes text n := by
  unfold size?
  split
  · exact unsigned_eq_some_iff.trans writes_plus.symm
  · rename_i unsigned
    exact unsigned_eq_some_iff.trans (writes_plain fun rest signed => unsigned rest signed).symm

theorem numeral_eq (zeros n : Nat) : numeral zeros n = List.replicate zeros '0' ++ Nat.toDigits 10 n := by
  rw [numeral, Nat.toString_eq_repr, Nat.toList_repr]

theorem digit_bounds (digit : c.isDigit = true) : '0'.toNat ≤ c.toNat ∧ c.toNat - '0'.toNat < 10 := by
  have bounds : 48 ≤ c.toNat ∧ c.toNat ≤ 57 := by simpa [Char.isDigit, UInt32.le_iff_toNat_le] using digit
  have zero : '0'.toNat = 48 := rfl
  omega

theorem toDigits_digit (digit : c.isDigit = true) : Nat.toDigits 10 (c.toNat - '0'.toNat) = [c] := by
  obtain ⟨above, small⟩ := digit_bounds digit
  have zero : '0'.toNat = 48 := rfl
  rw [Nat.toDigits_of_lt_base small, List.singleton_inj]
  apply Char.toNat_inj.mp
  rw [Nat.toNat_digitChar_of_lt_ten small]
  omega

theorem numeral_snoc (zeros n : Nat) (digit : c.isDigit = true) :
    ∃ more, numeral zeros n ++ [c] = numeral more (10 * n + (c.toNat - '0'.toNat)) := by
  simp only [numeral_eq]
  rcases Nat.eq_zero_or_pos n with rfl | positive
  · refine ⟨zeros + 1, ?_⟩
    rw [Nat.mul_zero, Nat.zero_add, toDigits_digit digit, Nat.toDigits_zero, List.replicate_succ']
  · refine ⟨zeros, ?_⟩
    rw [List.append_assoc, ← toDigits_digit digit, Nat.toDigits_append_toDigits (by decide) positive (digit_bounds digit).2]

theorem numeral_append (zeros n : Nat) (all : ∀ c ∈ digits, c.isDigit = true) :
    ∃ more, numeral zeros n ++ digits = numeral more (Nat.ofDigitChars 10 digits n) := by
  induction digits generalizing zeros n with
  | nil => exact ⟨zeros, List.append_nil _⟩
  | cons c rest ih =>
      obtain ⟨digit, others⟩ := List.forall_mem_cons.mp all
      obtain ⟨between, next⟩ := numeral_snoc zeros n digit
      obtain ⟨more, rest⟩ := ih between (10 * n + (c.toNat - '0'.toNat)) others
      exact ⟨more, by rw [List.append_cons, next, rest, Nat.ofDigitChars_cons]⟩

theorem eq_numeral (filled : digits ≠ []) (all : ∀ c ∈ digits, c.isDigit = true) :
    ∃ zeros, digits = numeral zeros (Nat.ofDigitChars 10 digits 0) := by
  cases digits with
  | nil => exact absurd rfl filled
  | cons c rest =>
      obtain ⟨digit, others⟩ := List.forall_mem_cons.mp all
      have first : numeral 0 (c.toNat - '0'.toNat) = [c] := by rw [numeral_eq, toDigits_digit digit]; rfl
      obtain ⟨zeros, whole⟩ := numeral_append 0 (c.toNat - '0'.toNat) others
      exact ⟨zeros, by rw [Nat.ofDigitChars_cons, Nat.mul_zero, Nat.zero_add, ← whole, first, List.singleton_append]⟩

theorem digits_numeral (zeros : Nat) (within : n < UInt64.size) : Digits (numeral zeros n) n := by
  rw [numeral_eq]
  refine ⟨List.append_ne_nil_of_right_ne_nil _ Nat.toDigits_ne_nil, ?_, ?_, within⟩
  · refine List.forall_mem_append.mpr ⟨fun c member => ?_, fun c member => Nat.isDigit_of_mem_toDigits (by decide) (by decide) member⟩
    rw [List.eq_of_mem_replicate member]
    rfl
  · rw [Nat.ofDigitChars_append, Nat.ofDigitChars_replicate_zero, Nat.mul_zero, Nat.ofDigitChars_ten_toDigits]

theorem digits_iff : Digits digits n ↔ n < UInt64.size ∧ ∃ zeros, digits = numeral zeros n := by
  constructor
  · rintro ⟨filled, all, rfl, within⟩
    exact ⟨within, eq_numeral filled all⟩
  · rintro ⟨within, zeros, rfl⟩
    exact digits_numeral zeros within

theorem writes_iff : Writes text n ↔ n < UInt64.size ∧ ∃ zeros, text = numeral zeros n ∨ text = '+' :: numeral zeros n := by
  constructor
  · rintro ⟨_, plain | signed, written⟩
    all_goals obtain ⟨within, zeros, rfl⟩ := digits_iff.mp written
    · exact ⟨within, zeros, .inl plain⟩
    · exact ⟨within, zeros, .inr signed⟩
  · rintro ⟨within, zeros, written⟩
    exact ⟨numeral zeros n, written, digits_numeral zeros within⟩

end Text

open Config

variable {env : Environment} {bytes : Option ByteArray} {s : String} {k : Nat}

theorem text?_eq_some_iff : Environment.text? bytes = some s ↔ bytes = some s.toUTF8 := by
  cases bytes with
  | none => simp [Environment.text?]
  | some bytes =>
      have whole : String.fromUTF8? bytes = some s ↔ bytes = s.toUTF8 := by
        unfold String.fromUTF8?
        split
        · rename_i valid
          rw [Option.some_inj, ← String.toByteArray_inj]
          rfl
        · rename_i invalid
          refine ⟨fun none => (by cases none), fun same => absurd ?_ invalid⟩
          rw [same]
          exact s.isValidUTF8
      simpa [Environment.text?] using whole

-- The stack that an environment asks for, in kilobytes.
def Environment.asks (env : Environment) (k : Nat) : Prop :=
  ∃ text : String, env.stackKilobytes = some text.toUTF8 ∧ Text.Writes text.toList k

theorem asks_iff_read : env.asks k ↔ ((Environment.text? env.stackKilobytes).bind fun s => Text.size? s.toList) = some k := by
  simp only [Environment.asks, Option.bind_eq_some_iff, text?_eq_some_iff, Text.size?_eq_some_iff]

-- A word counts the bytes that an environment asks for.
def Environment.fits (env : Environment) : Prop := ∀ k, env.asks k → 1024 * k < UInt64.size

theorem asks_once {j : Nat} (first : env.asks j) (other : env.asks k) : j = k := by
  rw [asks_iff_read] at first other
  exact Option.some.inj (first.symm.trans other)

theorem stackSize_iff {n : Nat} :
    (ofEnvironment env).stackSize = some n ↔ ∃ k, env.asks k ∧ 0 < k ∧ n = 1024 * k % UInt64.size := by
  simp only [ofEnvironment, Option.map_eq_some_iff, Option.filter_eq_some_iff, asks_iff_read, decide_eq_true_iff, and_assoc,
    Nat.mul_comm 1024, eq_comm (a := n)]

theorem stackSize_fits (fits : env.fits) : (ofEnvironment env).stackSize = some (1024 * k) ↔ env.asks k ∧ 0 < k := by
  rw [stackSize_iff]
  constructor
  · rintro ⟨j, asks, positive, same⟩
    rw [Nat.mod_eq_of_lt (fits j asks)] at same
    have : j = k := by omega
    exact this ▸ ⟨asks, positive⟩
  · rintro ⟨asks, positive⟩
    exact ⟨k, asks, positive, (Nat.mod_eq_of_lt (fits k asks)).symm⟩

theorem threadPrefix_named (filled : s ≠ "") (value : env.threadPrefix = some s.toUTF8) : (ofEnvironment env).threadPrefix = s := by
  have text : Environment.text? env.threadPrefix = some s := text?_eq_some_iff.mpr value
  simp [ofEnvironment, text, filled, Option.filter]

theorem threadPrefix_unnamed (unset : ∀ s : String, env.threadPrefix = some s.toUTF8 → s = "") :
    (ofEnvironment env).threadPrefix = defaultPrefix := by
  cases text : Environment.text? env.threadPrefix with
  | none => simp [ofEnvironment, text]
  | some s => simp [ofEnvironment, text, unset s (text?_eq_some_iff.mp text), Option.filter]

theorem toString_connection_inj {a b : ConnectionHandle} : toString a = toString b ↔ a = b := by
  refine ⟨fun same => ?_, congrArg toString⟩
  have digits : Nat.toDigits 10 a.val = Nat.toDigits 10 b.val := by
    rw [← Nat.toList_repr, ← Nat.toList_repr]
    exact congrArg String.toList same
  have numbers : a.val = b.val := calc
    a.val = Nat.ofDigitChars 10 (Nat.toDigits 10 a.val) 0 := Nat.ofDigitChars_ten_toDigits.symm
    _ = Nat.ofDigitChars 10 (Nat.toDigits 10 b.val) 0 := by rw [digits]
    _ = b.val := Nat.ofDigitChars_ten_toDigits
  cases a
  cases b
  exact congrArg ConnectionHandle.mk numbers

theorem dataThread_inj (c : Config) {a b : ConnectionHandle} : c.dataThread a = c.dataThread b ↔ a = b := by
  rw [dataThread, dataThread, String.append_right_inj, toString_connection_inj]

theorem deviceThread_ne_dataThread (c : Config) (a : ConnectionHandle) : c.deviceThread ≠ c.dataThread a := by
  rw [deviceThread, dataThread, String.append_assoc, Ne, String.append_right_inj]
  intro same
  have texts := congrArg String.toList same
  rw [String.toList_append] at texts
  simp at texts

theorem threads_nodup (c : Config) {connections : List ConnectionHandle} (apart : connections.Nodup) :
    (c.deviceThread :: connections.map c.dataThread).Nodup := by
  refine List.nodup_cons.mpr ⟨fun member => ?_, ?_⟩
  · obtain ⟨a, _, same⟩ := List.mem_map.mp member
    exact deviceThread_ne_dataThread c a same.symm
  · exact List.pairwise_map.mpr (apart.imp fun different same => different ((dataThread_inj c).mp same))

structure ConfigurationTold (env : Environment) : Prop where
  stack : ∀ n, (ofEnvironment env).stackSize = some n ↔ ∃ k, env.asks k ∧ 0 < k ∧ n = 1024 * k % UInt64.size
  whole : env.fits → ∀ k, (ofEnvironment env).stackSize = some (1024 * k) ↔ env.asks k ∧ 0 < k
  single : ∀ j k, env.asks j → env.asks k → j = k
  unasked : (ofEnvironment env).stackSize = none ↔ ∀ k, env.asks k → k = 0
  positive : env.fits → (ofEnvironment env).stackSize ≠ some 0
  numerals : ∀ k, env.asks k ↔ k < UInt64.size ∧ ∃ text : String, env.stackKilobytes = some text.toUTF8 ∧
    ∃ zeros, text.toList = Text.numeral zeros k ∨ text.toList = '+' :: Text.numeral zeros k
  named : ∀ s : String, s ≠ "" → env.threadPrefix = some s.toUTF8 → (ofEnvironment env).threadPrefix = s
  unnamed : (∀ s : String, env.threadPrefix = some s.toUTF8 → s = "") → (ofEnvironment env).threadPrefix = defaultPrefix
  nonempty : (ofEnvironment env).threadPrefix ≠ ""
  threads : ∀ settings connections, List.Nodup connections →
    (((ofEnvironment env).setAll settings).deviceThread :: connections.map ((ofEnvironment env).setAll settings).dataThread).Nodup

theorem configuration_told (env : Environment) : ConfigurationTold env where
  stack _ := stackSize_iff
  whole fits _ := stackSize_fits fits
  single _ _ := asks_once
  unasked := by
    constructor
    · intro unset k asks
      refine Nat.eq_zero_of_not_pos fun positive => ?_
      have size := stackSize_iff.mpr ⟨k, asks, positive, rfl⟩
      rw [unset] at size
      cases size
    · intro zero
      refine Option.eq_none_iff_forall_ne_some.mpr fun n size => ?_
      obtain ⟨k, asks, positive, _⟩ := stackSize_iff.mp size
      exact absurd (zero k asks) (Nat.ne_of_gt positive)
  positive fits size := by
    have none := (stackSize_fits (k := 0) fits).mp size
    exact Nat.lt_irrefl 0 none.2
  numerals k := by
    simp only [Environment.asks, Text.writes_iff]
    exact ⟨fun ⟨text, value, within, written⟩ => ⟨within, text, value, written⟩,
      fun ⟨within, text, value, written⟩ => ⟨text, value, within, written⟩⟩
  named s filled value := threadPrefix_named filled value
  unnamed unset := threadPrefix_unnamed unset
  nonempty empty := by
    by_cases named : ∃ s : String, env.threadPrefix = some s.toUTF8 ∧ s ≠ ""
    · obtain ⟨s, value, filled⟩ := named
      exact filled (threadPrefix_named filled value ▸ empty)
    · rw [threadPrefix_unnamed fun s value => Classical.byContradiction fun filled => named ⟨s, value, filled⟩] at empty
      exact absurd empty (by decide)
  threads settings connections apart := threads_nodup _ apart

def setEnvironment : Environment := { threadPrefix := some "hub".toUTF8, stackKilobytes := some "+0064".toUTF8 }

def garbledEnvironment : Environment := { threadPrefix := some ⟨#[0x68, 0xff]⟩, stackKilobytes := some "64k".toUTF8 }

def wideEnvironment : Environment := { stackKilobytes := some "18014398509481985".toUTF8 }

theorem configuration_of_three :
    ConfigurationTold setEnvironment ∧ ConfigurationTold garbledEnvironment ∧ ConfigurationTold wideEnvironment ∧
      ofEnvironment setEnvironment = { threadPrefix := "hub", stackSize := some 65536, joinWorkers := true } ∧
      ofEnvironment garbledEnvironment = { threadPrefix := "ivi-tm", stackSize := none, joinWorkers := true } ∧
      (ofEnvironment wideEnvironment).stackSize = some 1024 ∧
      (((ofEnvironment setEnvironment).setAll [.threadPrefix "tm", .stackSize 7]).deviceThread ::
        [⟨1⟩, ⟨12⟩, ⟨2⟩].map ((ofEnvironment setEnvironment).setAll [.threadPrefix "tm", .stackSize 7]).dataThread).Nodup := by
  have told := configuration_told setEnvironment
  refine ⟨told, configuration_told garbledEnvironment, configuration_told wideEnvironment, ?_, ?_, ?_, told.threads _ _ (by decide)⟩
  · decide +kernel
  · decide +kernel
  · decide +kernel

end TransportHub
