import LightBridge.Config.Storage
import LightBridge.Proofs.Disk
import LightBridge.Proofs.Json.Written

/-!
# Configurations saved and loaded

A configuration is written as an object with its eight fields, one on each line, and read field by
field. Main statement: what was saved is loaded again, except that a duration too long for the 64-bit
encoding comes back as never.
-/

namespace LightBridge.Config

open Json (renderString indentedFields newline escapeChar)
open Json.Reader (skipSpace scalar colon isSpace EndsNumber skipSpace_cons skipSpace_space
  stringBody_render scalar_renderString scalar_digits)

/-- What a duration is once it was saved and loaded. -/
def keptDuration : Duration → Duration
  | .millis n => if n < 18446744073709551615 then .millis n else .never
  | .never => .never

/-- What a configuration is once it was saved and loaded. -/
def kept (c : Config) : Config :=
  { c with
    refreshInterval := keptDuration c.refreshInterval
    minDelay := keptDuration c.minDelay
    pairingTimeout := keptDuration c.pairingTimeout
    pairingInterval := keptDuration c.pairingInterval }

theorem durationOf_millisOf (d : Duration) : durationOf (millisOf d) = keptDuration d := by
  cases d with
  | millis n => exact durationOf_millisOf_millis n
  | never => rfl

/-- `acc` with one field from what `c` is once it was saved and loaded. -/
def take (c acc : Config) : Field → Config
  | .address => { acc with address := c.address }
  | .port => { acc with port := c.port }
  | .username => { acc with username := c.username }
  | .refreshInterval => { acc with refreshInterval := keptDuration c.refreshInterval }
  | .minDelay => { acc with minDelay := keptDuration c.minDelay }
  | .pairingTimeout => { acc with pairingTimeout := keptDuration c.pairingTimeout }
  | .pairingInterval => { acc with pairingInterval := keptDuration c.pairingInterval }
  | .deviceType => { acc with deviceType := c.deviceType }

theorem foldl_take_all (c acc : Config) : Field.all.foldl (take c) acc = c.kept := by
  simp only [Field.all, List.foldl_cons, List.foldl_nil, take, kept]

variable {size : Nat} {rest : List Char} (c acc : Config) (f : Field)

/-! ## One field -/

/-- The value of every field is a string or a whole number. -/
theorem value_cases : (∃ s, c.value f = .string s) ∨ ∃ n h, c.value f = .number (.ofNat n h) := by
  cases f
  case address | username | deviceType => exact .inl ⟨_, rfl⟩
  all_goals exact .inr ⟨_, _, rfl⟩

theorem indented_value (depth : Nat) : (c.value f).indented depth = (c.value f).render := by
  cases f <;> rfl

theorem scalar_value (h : ((c.value f).render ++ rest).length ≤ size) (hrest : EndsNumber rest) :
    scalar size ((c.value f).render ++ rest) = .ok (c.value f, rest) := by
  rcases value_cases c f with ⟨s, hv⟩ | ⟨n, hn, hv⟩ <;> rw [hv] at h ⊢
  · exact scalar_renderString s h
  · exact scalar_digits hn hrest

/-- A value begins with a quote or a digit. -/
theorem head_value : ∃ d ds, (c.value f).render = d :: ds ∧ isSpace d = false ∧ d ≠ '[' ∧ d ≠ '\x7b' := by
  rcases value_cases c f with ⟨s, hv⟩ | ⟨n, hn, hv⟩ <;> rw [hv]
  · exact ⟨'"', _, rfl, by decide, by decide, by decide⟩
  · obtain ⟨d, ds, hds, hd⟩ := Numeral.exists_digits_eq_cons n
    have hne (x : Char) (hx : x.isDigit = false) : d ≠ x := fun h => by
      rw [h, hx] at hd
      cases hd
    refine ⟨d, ds, hds, ?_, hne _ (by decide), hne _ (by decide)⟩
    simp only [isSpace, Bool.or_eq_false_iff, beq_eq_false_iff_ne]
    exact ⟨⟨⟨hne _ (by decide), hne _ (by decide)⟩, hne _ (by decide)⟩, hne _ (by decide)⟩

/-- A value is read by a reader that accepts it. -/
theorem typed_value {α : Type} {accept : Json → Option α} {a : α} (ha : accept (c.value f) = some a)
    (h : ((c.value f).render ++ rest).length ≤ size) (hrest : EndsNumber rest) :
    typed size accept (' ' :: ((c.value f).render ++ rest)) = .ok (a, rest) := by
  have hscalar := scalar_value c f h hrest
  obtain ⟨d, ds, hds, hspace, hbracket, hbrace⟩ := head_value c f
  rw [hds, List.cons_append] at hscalar ⊢
  rw [typed, skipSpace_space, skipSpace_cons hspace]
  split
  · next hd => exact absurd (List.head_eq_of_cons_eq hd) hbracket
  · next hd => exact absurd (List.head_eq_of_cons_eq hd) hbrace
  · simp only [hscalar, bind, Except.bind, ha]
    rfl

theorem nat64?_ofNat {n : Nat} (h : n < 0x10000000000000000) :
    (Json.number (.ofNat n h)).nat64? = some n := by
  simp [Json.nat64?, Number.ofNat, Number.nat64?]

/-- A field is read from what it is written as. -/
theorem readField_value (h : ((c.value f).render ++ rest).length ≤ size) (hrest : EndsNumber rest) :
    readField size acc f (' ' :: ((c.value f).render ++ rest)) = .ok (take c acc f, rest) := by
  have htext (s : String) : (Json.string s).string? = some s := rfl
  have hduration (d : Duration) : (durationJson d).nat64?.map durationOf = some (keptDuration d) := by
    rw [durationJson, nat64?_ofNat, Option.map_some, durationOf_millisOf]
  cases f
  case address | username | deviceType =>
    rw [readField, text, typed_value c _ (htext _) h hrest]
    rfl
  case port =>
    have hport : ((c.value .port).nat64?.bind fun n =>
        if n < 0x10000 then some (UInt16.ofNat n) else none) = some c.port := by
      rw [value, Number.ofUInt16, nat64?_ofNat, Option.bind_some, if_pos c.port.toNat_lt,
        UInt16.ofNat_toNat]
    rw [readField, portNumber, typed_value c _ hport h hrest]
    rfl
  all_goals
    rw [readField, duration, typed_value c _ (hduration _) h hrest]
    rfl

/-! ## All fields -/

/-- A field as it stands in an object. -/
def entry (f : Field) : String × Json := (f.name, c.value f)

theorem endsNumber_indentedFields (fields : List Field) :
    EndsNumber (indentedFields 0 (fields.map c.entry)) := by
  cases fields with
  | nil =>
    intro d hd
    cases hd
    decide
  | cons g fields =>
    intro d hd
    cases hd
    decide

/-- One field among others: what follows it decides whether there is another one. -/
theorem readFields_field {f : Field} {seen : List Field} (hnew : f ∉ seen) (fuel : Nat)
    (hsize : (f.name.toList.flatMap escapeChar ++ '"' :: ':' :: ' ' ::
      ((c.value f).render ++ rest)).length ≤ size) (hrest : EndsNumber rest) :
    readFields size (fuel + 1) seen acc
        (f.name.toList.flatMap escapeChar ++ '"' :: ':' :: ' ' :: ((c.value f).render ++ rest)) =
      match skipSpace rest with
      | '\x7d' :: rest => .ok (take c acc f, rest)
      | ',' :: rest =>
        match skipSpace rest with
        | '"' :: rest => readFields size fuel (f :: seen) (take c acc f) rest
        | [] => .error .endOfInput
        | _ => .error .malformed
      | [] => .error .endOfInput
      | _ => .error .malformed := by
  have hcolon : colon (':' :: ' ' :: ((c.value f).render ++ rest)) =
      .ok ((), ' ' :: ((c.value f).render ++ rest)) := rfl
  have hvalue : ((c.value f).render ++ rest).length ≤ size := by
    rw [List.length_append, List.length_cons, List.length_cons, List.length_cons] at hsize
    omega
  have hseen : seen.contains f = false := by simpa using hnew
  rw [readFields, stringBody_render _ hsize]
  simp only [bind, Except.bind, Field.ofName?_name, Option.any_some, hseen, Bool.false_eq_true,
    if_false, hcolon, pure, Except.pure, readField_value c acc f hvalue hrest, Option.toList_some,
    List.singleton_append]
  rfl

/-- Fields that were not seen before are read from what they are written as. -/
theorem readFields_indented {f : Field} {fields : List Field} (seen : List Field)
    (hfields : (f :: fields).Nodup) (hseen : ∀ g ∈ f :: fields, g ∉ seen) (fuel : Nat)
    (hfuel : fields.length < fuel)
    (hsize : (f.name.toList.flatMap escapeChar ++ '"' :: ':' :: ' ' :: ((c.value f).render ++
      indentedFields 0 (fields.map c.entry))).length ≤ size) :
    readFields size fuel seen acc (f.name.toList.flatMap escapeChar ++ '"' :: ':' :: ' ' ::
        ((c.value f).render ++ indentedFields 0 (fields.map c.entry))) =
      .ok ((f :: fields).foldl (take c) acc, []) := by
  induction fields generalizing f acc seen fuel with
  | nil =>
    obtain ⟨fuel, rfl⟩ : ∃ n, fuel = n + 1 := ⟨fuel - 1, by omega⟩
    rw [readFields_field c acc (hseen f List.mem_cons_self) fuel hsize (endsNumber_indentedFields c [])]
    rfl
  | cons g fields ih =>
    obtain ⟨fuel, rfl⟩ : ∃ n, fuel = n + 1 := ⟨fuel - 1, by omega⟩
    have hmore : indentedFields 0 ((g :: fields).map c.entry) =
        ',' :: (newline 1 ++ '"' :: (g.name.toList.flatMap escapeChar ++ '"' :: ':' :: ' ' ::
          ((c.value g).render ++ indentedFields 0 (fields.map c.entry)))) := by
      simp [indentedFields, entry, renderString, indented_value]
    obtain ⟨hf, hg⟩ := List.nodup_cons.mp hfields
    have hnew (x : Field) (hx : x ∈ g :: fields) : x ∉ f :: seen := by
      rw [List.mem_cons, not_or]
      exact ⟨fun h => hf (h ▸ hx), hseen x (List.mem_cons_of_mem f hx)⟩
    rw [readFields_field c acc (hseen f List.mem_cons_self) fuel hsize (endsNumber_indentedFields c _)]
    rw [hmore] at hsize ⊢
    -- The comma and the line break before the next field are skipped by computation.
    refine ih (take c acc f) (f :: seen) hg hnew fuel (Nat.lt_of_succ_lt_succ hfuel) ?_
    simp only [List.length_append, List.length_cons] at hsize ⊢
    omega

/-- What is read from the text of the file that a configuration is saved in. -/
theorem read_fileText : read c.fileText = .ok c.kept := by
  let others : List Field := Field.all.tail
  let body : List Char := Field.address.name.toList.flatMap escapeChar ++ '"' :: ':' :: ' ' ::
    ((c.value .address).render ++ indentedFields 0 (others.map c.entry))
  have htext : c.fileText.toList = '\x7b' :: (newline 1 ++ '"' :: body) := by
    have hobject : c.toJson = .object (c.entry .address :: others.map c.entry) := rfl
    rw [fileText, Json.indentedText, String.toList_ofList, hobject, entry, Json.indented,
      indented_value]
    simp [renderString, body]
  have hothers (size : Nat) (h : body.length ≤ size) : others.length < size + 1 := by
    have hname : (Field.address.name.toList.flatMap escapeChar).length = others.length := by decide
    rw [List.length_append] at h
    omega
  have hbody (size : Nat) (h : body.length ≤ size) :
      readDocument size ('\x7b' :: (newline 1 ++ '"' :: body)) = .ok (c.kept, []) := by
    rw [← foldl_take_all c default]
    exact readFields_indented c default [] (by decide) (fun _ _ => List.not_mem_nil) (size + 1)
      (hothers size h) h
  have hread := hbody ('\x7b' :: (newline 1 ++ '"' :: body)).length
    (by simp only [List.length_append, List.length_cons]; omega)
  rw [read, htext]
  simp only [hread, bind, Except.bind]
  rfl

/-! ## Files -/

/-- The four durations of a configuration. -/
def durations : List (Config → Duration) :=
  [refreshInterval, minDelay, pairingTimeout, pairingInterval]

theorem keptDuration_eq_never_iff (d : Duration) :
    keptDuration d = .never ↔ d = .never ∨ ∃ n, 18446744073709551615 ≤ n ∧ d = .millis n := by
  cases d with
  | millis n => simp [keptDuration]
  | never => simp [keptDuration]

theorem millisOf_keptDuration (d : Duration) : millisOf (keptDuration d) = millisOf d := by
  cases d with
  | millis n =>
    rw [keptDuration]
    split
    · rfl
    · next h => exact (Nat.min_eq_right (Nat.le_of_not_lt h)).symm
  | never => rfl

theorem fileText_kept : c.kept.fileText = c.fileText := by
  have hvalue (f : Field) : c.kept.value f = c.value f := by
    cases f
    case address | port | username | deviceType => rfl
    all_goals simp only [value, kept, durationJson, millisOf_keptDuration]
  simp only [fileText, toJson, hvalue]

theorem kept_kept : c.kept.kept = c.kept := by
  have h (d : Duration) : keptDuration (keptDuration d) = keptDuration d := by
    rw [← durationOf_millisOf, millisOf_keptDuration, durationOf_millisOf]
  simp only [kept, h]

theorem save_ends (d : Disk) (path : String) :
    c.save d path = ((d.put path (.file c.fileText)).1,
      if (d.put path (.file c.fileText)).2 then .ok () else .error .storage) := by
  rw [save]
  rcases d.put path (.file c.fileText) with ⟨d', _ | _⟩ <;> rfl

theorem load_of_at? {d : Disk} {path : String} (h : d.at? path = some (.file c.fileText)) :
    load d path = .ok c.kept := by
  rw [load, h]
  dsimp only
  rw [read_fileText]
  rfl

/-- **What is saved is loaded again.** Reading the text of a saved configuration gives the
configuration back, with never in the place of every duration that the encoding cannot tell from
never, and with no other change; it is never exactly where it was never or too long. Saving and
loading again changes nothing, neither the configuration nor the file. On a disk, whatever path
could be saved to can be loaded from and saved to again. -/
theorem saved_and_loaded :
    read c.fileText = .ok c.kept ∧
      (∀ duration ∈ durations, duration c.kept = .never ↔
        duration c = .never ∨ ∃ n, 18446744073709551615 ≤ n ∧ duration c = .millis n) ∧
      (c.kept.kept = c.kept ∧ c.kept.fileText = c.fileText) ∧
      ∀ (d : Disk) (path : String), d.isFolder (d.origin path) = true → (c.save d path).2 = .ok () →
        load (c.save d path).1 path = .ok c.kept ∧
          (c.kept.save (c.save d path).1 path).2 = .ok () ∧
          load (c.kept.save (c.save d path).1 path).1 path = .ok c.kept ∧
          ∀ place, Disk.entry? (c.kept.save (c.save d path).1 path).1 place =
            Disk.entry? (c.save d path).1 place := by
  refine ⟨read_fileText c, ?_, ⟨kept_kept c, fileText_kept c⟩, ?_⟩
  · intro duration hduration
    simp only [durations, List.mem_cons, List.not_mem_nil, or_false] at hduration
    rcases hduration with rfl | rfl | rfl | rfl <;> exact keptDuration_eq_never_iff _
  · intro d path horigin hsave
    have hput : (d.put path (.file c.fileText)).2 = true := by
      rw [save_ends] at hsave
      by_contra h
      rw [Bool.not_eq_true] at h
      rw [h] at hsave
      cases hsave
    obtain ⟨before, name, made, folder, hputs⟩ := Disk.puts_of_put hput
    -- the text is the same, so the second save puts the same file in the same place
    have hagain := hputs.again horigin (fun h => nomatch h) (.file c.fileText)
    refine ⟨?_, ?_, ?_, fun place => ?_⟩
    · rw [save_ends]
      exact load_of_at? c (hputs.at?_eq horigin)
    · rw [save_ends c.kept, save_ends c, fileText_kept, hagain.ends]
      rfl
    · rw [save_ends c.kept, save_ends c, fileText_kept]
      exact load_of_at? c (hagain.at?_eq (hputs.isFolder_origin horigin))
    · rw [save_ends c.kept, save_ends c, fileText_kept, hagain.ends, hputs.ends]
      by_cases hplace : place = folder.enter name
      · rw [hplace, Disk.entry?_set_self _ (Disk.ne_root_of_not_isFolder hputs.free),
          Disk.entry?_set_self _ (Disk.ne_root_of_not_isFolder hputs.free)]
      · exact Disk.entry?_set_of_ne _ hplace

/-- The longest duration that is kept, the shortest that is not, and never, in a folder that is made
for the file. -/
theorem longest_duration_kept :
    let c : Config := { forAddress "é\"\n" with
      refreshInterval := .never, minDelay := .millis 18446744073709551614,
      pairingTimeout := .millis 18446744073709551615 }
    let d := Disk.empty
    let path := "/hue/bridge.json"
    d.isFolder (d.origin path) = true ∧ (c.save d path).2 = .ok () ∧
      load (c.save d path).1 path = .ok { c with pairingTimeout := .never } := by
  intro c d path
  have horigin : d.isFolder (d.origin path) = true := by decide
  have hput (text : String) : (Disk.empty.put "/hue/bridge.json" (.file text)).2 = true := rfl
  have hsave : (c.save d path).2 = .ok () := by
    rw [save_ends, hput]
    rfl
  exact ⟨horigin, hsave, ((saved_and_loaded c).2.2.2 d path horigin hsave).1⟩

end LightBridge.Config
