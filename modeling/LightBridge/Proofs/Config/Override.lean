import Mathlib.Data.List.TakeWhile
import LightBridge.Config.Basic

/-!
# Overriding a configuration

The overrides by the settings of an environment are applied one after another, and the port is the only one that can be refused. Main
statement: the overrides succeed exactly when the port setting, if there is one, denotes a port, and
then each of the three fields is what its setting says. When they are refused, the address is
overridden all the same and the user is not: what a refused override leaves behind is the old
configuration only if no other address is set.
-/

namespace LightBridge

namespace Text

/-- Text without blanks is what is left when the blanks around it are trimmed. -/
theorem trimBlanks_append {before middle after : List Char}
    (hbefore : ∀ c ∈ before, isBlank c = true) (hmiddle : ∀ c ∈ middle, isBlank c = false)
    (hafter : ∀ c ∈ after, isBlank c = true) :
    trimBlanks (before ++ middle ++ after) = middle := by
  -- What is dropped at one end of a text that goes on with no blank.
  have drop (cs : List Char) (hcs : ∀ c ∈ cs, isBlank c = false) : cs.dropWhile isBlank = cs := by
    cases cs with
    | nil => rfl
    | cons c cs => exact List.dropWhile_cons_of_neg (by simp [hcs c])
  have hreverse (c : Char) (hc : c ∈ after.reverse) : isBlank c = true :=
    hafter c (List.mem_reverse.mp hc)
  cases middle with
  | nil =>
    have hall (c : Char) (hc : c ∈ before ++ [] ++ after) : isBlank c = true := by
      rw [List.append_nil, List.mem_append] at hc
      exact hc.elim (hbefore c) (hafter c)
    exact (trimBlanks_eq_nil_iff _).mpr (List.all_eq_true.mpr hall)
  | cons c cs =>
    have hfirst : (before ++ (c :: cs) ++ after).dropWhile isBlank = c :: cs ++ after := by
      rw [List.append_assoc, List.dropWhile_append_of_pos hbefore, List.cons_append,
        List.dropWhile_cons_of_neg (by simp [hmiddle c])]
    rw [trimBlanks, hfirst, List.reverse_append, List.dropWhile_append_of_pos hreverse,
      drop _ fun d hd => hmiddle d (List.mem_reverse.mp hd), List.reverse_reverse]

/-- A text is its trimmed form between blanks. -/
theorem exists_trimBlanks (cs : List Char) : ∃ before after,
    cs = before ++ trimBlanks cs ++ after ∧ (∀ c ∈ before, isBlank c = true) ∧
      ∀ c ∈ after, isBlank c = true := by
  let rest := cs.dropWhile isBlank
  refine ⟨cs.takeWhile isBlank, (rest.reverse.takeWhile isBlank).reverse, ?_,
    fun c hc => List.mem_takeWhile_imp hc,
    fun c hc => List.mem_takeWhile_imp (List.mem_reverse.mp hc)⟩
  have hrest : trimBlanks cs ++ (rest.reverse.takeWhile isBlank).reverse = rest := by
    rw [trimBlanks, ← List.reverse_append, List.takeWhile_append_dropWhile, List.reverse_reverse]
  rw [List.append_assoc, hrest, List.takeWhile_append_dropWhile]

theorem isBlank_eq_false_of_isDigit {c : Char} (h : c.isDigit = true) : isBlank c = false := by
  have hrange : 48 ≤ c.toNat ∧ c.toNat ≤ 57 := Char.isDigit_iff_toNat.mp h
  simp only [isBlank, Bool.or_eq_false_iff, Bool.and_eq_false_iff, beq_eq_false_iff_ne,
    decide_eq_false_iff_not]
  omega

end Text

namespace Config

/-- The texts that denote a port: digits of a number below 65536, after a plus sign or after nothing,
with blanks around them. -/
def DenotesPort (text : String) (port : UInt16) : Prop :=
  ∃ before sign ds after, text.toList = before ++ (sign ++ ds) ++ after ∧
    (∀ c ∈ before, Text.isBlank c = true) ∧ (∀ c ∈ after, Text.isBlank c = true) ∧
    (sign = [] ∨ sign = ['+']) ∧ ds ≠ [] ∧ (∀ c ∈ ds, c.isDigit = true) ∧
    Nat.ofDigitChars 10 ds 0 = port.toNat

theorem readPort?_eq_some_iff {text : String} {port : UInt16} :
    readPort? text = some port ↔ DenotesPort text port := by
  have hrange (n : Nat) : (if n < 0x10000 then some (UInt16.ofNat n) else none) = some port ↔
      n = port.toNat := by
    constructor
    · intro h
      split at h
      · next hn => rw [← Option.some.inj h, UInt16.toNat_ofNat_of_lt' hn]
      · cases h
    · rintro rfl
      rw [if_pos port.toNat_lt, UInt16.ofNat_toNat]
  have hnumber : readPort? text = some port ↔
      Numeral.readNat? (Text.trimBlanks text.toList) = some port.toNat := by
    rw [readPort?, Option.bind_eq_some_iff]
    exact ⟨fun ⟨n, hn, h⟩ => (hrange n).mp h ▸ hn, fun h => ⟨_, h, (hrange _).mpr rfl⟩⟩
  rw [hnumber, Numeral.readNat?_eq_some_iff]
  -- what is trimmed off is blank, and neither a sign nor a digit is
  constructor
  · rintro ⟨sign, ds, htrim, h⟩
    obtain ⟨before, after, htext, hbefore, hafter⟩ := Text.exists_trimBlanks text.toList
    exact ⟨before, sign, ds, after, htrim ▸ htext, hbefore, hafter, h⟩
  · rintro ⟨before, sign, ds, after, htext, hbefore, hafter, hsign, hne, hds, hvalue⟩
    refine ⟨sign, ds, ?_, hsign, hne, hds, hvalue⟩
    rw [htext]
    refine Text.trimBlanks_append hbefore (fun c hc => ?_) hafter
    rcases List.mem_append.mp hc with hc | hc
    · rcases hsign with rfl | rfl
      · cases hc
      · rw [List.mem_singleton.mp hc]
        decide
    · exact Text.isBlank_eq_false_of_isDigit (hds c hc)

variable (c : Config) (setting : String → Option String)

/-- What overrides that can all be used make of a configuration. -/
structure Overridden (c' : Config) : Prop where
  address : c'.address = (setting addressSetting).getD c.address
  port : match setting portSetting with
    | some text => DenotesPort text c'.port
    | none => c'.port = c.port
  username : c'.username = (setting usernameSetting).getD c.username
  others : c' = { c with address := c'.address, port := c'.port, username := c'.username }

/-- How overrides are refused: the port setting denotes no port, and nothing but the address has
changed. -/
structure Refused (c' : Config) (e : ConfigError) : Prop where
  blamed : ∃ text, setting portSetting = some text ∧ (∀ port, ¬ DenotesPort text port) ∧
    e = .setting portSetting text
  address : c'.address = (setting addressSetting).getD c.address
  others : c' = { c with address := c'.address }

/-- All ways in which overriding ends. -/
theorem override_cases :
    (∃ c', c.override setting = (c', .ok ()) ∧ Overridden c setting c') ∨
      ∃ c' e, c.override setting = (c', .error e) ∧ Refused c setting c' e := by
  unfold override
  cases hport : setting portSetting with
  | none =>
    refine .inl ⟨_, rfl, ?_⟩
    exact { address := rfl, port := by simp only [hport], username := rfl, others := rfl }
  | some text =>
    cases hread : readPort? text with
    | some port =>
      have hdenotes : DenotesPort text port := readPort?_eq_some_iff.mp hread
      simp only [hread]
      refine .inl ⟨_, rfl, ?_⟩
      exact { address := rfl, port := by simpa only [hport], username := rfl, others := rfl }
    | none =>
      have hdenotes (port : UInt16) (h : DenotesPort text port) : False := by
        rw [readPort?_eq_some_iff.mpr h] at hread
        cases hread
      simp only [hread]
      refine .inr ⟨_, _, rfl, ?_⟩
      exact { blamed := ⟨text, hport, hdenotes, rfl⟩, address := rfl, others := rfl }

variable {c setting}

theorem Overridden.eq {c₁ c₂ : Config} (h₁ : Overridden c setting c₁) (h₂ : Overridden c setting c₂) :
    c₁ = c₂ := by
  have hport : c₁.port = c₂.port := by
    have hp₁ := h₁.port
    have hp₂ := h₂.port
    cases hport : setting portSetting with
    | none => simp only [hport] at hp₁ hp₂; rw [hp₁, hp₂]
    | some text =>
      simp only [hport] at hp₁ hp₂
      exact Option.some.inj ((readPort?_eq_some_iff.mpr hp₁).symm.trans (readPort?_eq_some_iff.mpr hp₂))
  rw [h₁.others, h₂.others, h₁.address, h₂.address, h₁.username, h₂.username, hport]

theorem Overridden.not_refused {c' c'' : Config} {e : ConfigError} (h : Overridden c setting c') :
    ¬ Refused c setting c'' e := by
  rintro ⟨⟨text, hport, hdenotes, -⟩, -, -⟩
  have hp := h.port
  rw [hport] at hp
  exact hdenotes _ hp

theorem Refused.eq {c₁ c₂ : Config} {e₁ e₂ : ConfigError} (h₁ : Refused c setting c₁ e₁)
    (h₂ : Refused c setting c₂ e₂) : c₁ = c₂ ∧ e₁ = e₂ := by
  obtain ⟨text, hport, -, rfl⟩ := h₁.blamed
  obtain ⟨text', hport', -, rfl⟩ := h₂.blamed
  obtain rfl : text = text' := Option.some.inj (hport.symm.trans hport')
  exact ⟨by rw [h₁.others, h₂.others, h₁.address, h₂.address], rfl⟩

/-- **Overrides end in one of two ways.** They succeed exactly with the configuration whose address,
port and user are what the settings say, and they fail exactly when the port setting denotes no port.
The address has been overridden then, so that the old configuration is left behind exactly if no
other address is set. -/
theorem override_ends (c : Config) (setting : String → Option String) (c' : Config)
    (e : ConfigError) :
    (c.override setting = (c', .ok ()) ↔ Overridden c setting c') ∧
      (c.override setting = (c', .error e) ↔ Refused c setting c' e) ∧
      (c.override setting = (c, .error e) ↔ (∃ left, c.override setting = (left, .error e)) ∧
        ∀ address, setting addressSetting = some address → address = c.address) := by
  have hrefused (left : Config) : c.override setting = (left, .error e) ↔ Refused c setting left e := by
    rcases override_cases c setting with ⟨c'', hends, hc''⟩ | ⟨c'', e'', hends, hc''⟩
    · simp only [hends, Prod.mk.injEq, reduceCtorEq, and_false, false_iff]
      exact hc''.not_refused
    · rw [hends, Prod.mk.injEq, Except.error.injEq]
      exact ⟨fun ⟨hc, he⟩ => hc ▸ he ▸ hc'', hc''.eq⟩
  refine ⟨?_, hrefused c', ?_⟩
  · rcases override_cases c setting with ⟨c'', hends, hc''⟩ | ⟨c'', e'', hends, hc''⟩
    · rw [hends, Prod.mk.injEq]
      exact ⟨fun ⟨hc, _⟩ => hc ▸ hc'', fun h => ⟨hc''.eq h, rfl⟩⟩
    · simp only [hends, Prod.mk.injEq, reduceCtorEq, and_false, false_iff]
      exact fun h => h.not_refused hc''
  · have haddress : (setting addressSetting).getD c.address = c.address ↔
        ∀ address, setting addressSetting = some address → address = c.address := by
      cases setting addressSetting <;> simp
    simp only [hrefused, ← haddress]
    constructor
    · exact fun h => ⟨⟨c, h⟩, h.address.symm⟩
    · rintro ⟨⟨left, h⟩, hsame⟩
      exact { blamed := h.blamed, address := hsame.symm, others := rfl }

/-- A refused override can change the configuration: here the address is new although the port
setting was refused. -/
theorem refused_override_changes :
    ¬ ∀ (c : Config) (setting : String → Option String) (e : ConfigError),
      (c.override setting).2 = .error e → (c.override setting).1 = c := by
  intro h
  let setting : String → Option String := fun name =>
    if name = addressSetting then some "b" else if name = portSetting then some "x" else none
  have hsame := h (forAddress "a") setting (.setting portSetting "x") (by decide)
  exact absurd (congrArg address hsame) (by decide)

end Config

end LightBridge
