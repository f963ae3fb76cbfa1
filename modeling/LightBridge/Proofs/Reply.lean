import LightBridge.Proofs.Change.Acknowledged
import LightBridge.Proofs.Json.Agrees

/-!
# What a reply acknowledges

Each field is looked up by its address in all entries of a reply. So how the acknowledgements are
ordered and grouped into entries makes no difference, as long as no address is acknowledged twice,
and a reply that gives every written field back is accepted, whatever else it acknowledges.
-/

namespace LightBridge

open Fields (Distinct)

namespace Text

theorem dropTrailingSlashes_append_slashes (cs : List Char) (n : Nat) :
    dropTrailingSlashes (cs ++ List.replicate n '/') = dropTrailingSlashes cs := by
  induction n with
  | zero => rw [List.replicate_zero, List.append_nil]
  | succ n ih =>
    rw [List.replicate_succ', ← List.append_assoc, dropTrailingSlashes_append_slash, ih]

theorem trimSlashes_append_slashes (s : String) (n : Nat) :
    trimSlashes (s ++ String.ofList (List.replicate n '/')) = trimSlashes s := by
  rw [trimSlashes, trimSlashes, String.toList_append, String.toList_ofList,
    dropTrailingSlashes_append_slashes]

theorem trimSlashes_of_getLast? {s : String} (h : s.toList.getLast? ≠ some '/') :
    trimSlashes s = s := by
  have hdrop : dropTrailingSlashes s.toList = s.toList := by
    rcases List.eq_nil_or_concat s.toList with hnil | ⟨init, last, hlast⟩
    · rw [hnil, dropTrailingSlashes_nil]
    · rw [hlast, List.concat_eq_append] at h ⊢
      refine dropTrailingSlashes_append init fun hslash => h ?_
      rw [List.getLast?_concat, hslash]
  rw [trimSlashes, hdrop, String.ofList_toList]

end Text

namespace Reply

variable {entries entries' : List Json} {path base : String} {request others : Fields}

/-- What the entries of a reply acknowledge, in order: each address with its value. -/
def acknowledgements (entries : List Json) : Fields :=
  entries.flatMap fun entry => ((entry.get? "success").bind Json.object?).getD []

/-- No entry of a reply refuses anything. -/
def Unrefused (entries : List Json) : Prop := ∀ entry ∈ entries, entry.get? "error" = none

/-- The first entry that acknowledges an address decides, wherever it stands. -/
theorem acknowledged?_array (entries : List Json) (address : String) :
    acknowledged? (.array entries) address = Fields.value? (acknowledgements entries) address := by
  have hentry (entry : Json) : (entry.get? "success").bind (·.get? address) =
      Fields.value? (((entry.get? "success").bind Json.object?).getD []) address := by
    cases entry.get? "success" with
    | none => rfl
    | some v => cases v <;> rfl
  show entries.findSome? (fun entry => (entry.get? "success").bind (·.get? address)) = _
  induction entries with
  | nil => rfl
  | cons entry rest ih =>
    rw [acknowledgements, List.flatMap_cons, Fields.value?_append, ← hentry, List.findSome?_cons,
      ih, acknowledgements]
    cases (entry.get? "success").bind (·.get? address) <;> rfl

theorem validate_array (h : Unrefused entries) :
    validate path request (.array entries) =
      .ok (acknowledgesAll path request (.array entries)) := by
  unfold validate
  rw [check_array_eq_ok_iff.mpr h]
  rfl

theorem fieldAddress_append_slashes (hbase : base.toList.getLast? ≠ some '/') (slashes : Nat)
    (key : String) :
    fieldAddress (base ++ String.ofList (List.replicate slashes '/')) key = base ++ "/" ++ key := by
  rw [fieldAddress, Text.trimSlashes_append_slashes, Text.trimSlashes_of_getLast? hbase]

theorem fieldAddress_inj {key key' : String} :
    fieldAddress path key = fieldAddress path key' ↔ key = key' := by
  unfold fieldAddress
  exact String.append_right_inj _

/-- What a reply acknowledges for an address does not depend on the order and the grouping. -/
theorem acknowledged?_perm (h : Distinct (acknowledgements entries))
    (hp : (acknowledgements entries).Perm (acknowledgements entries')) (address : String) :
    acknowledged? (.array entries') address = acknowledged? (.array entries) address := by
  rw [acknowledged?_array, acknowledged?_array, Fields.value?_perm hp h]

/-- A field that is given back under its address is acknowledged with its own value, whatever else
is acknowledged elsewhere. -/
theorem acknowledged?_of_echo (h : Distinct request)
    (hp : (acknowledgements entries).Perm
      (request.map (fun field => (fieldAddress path field.1, field.2)) ++ others))
    (hothers : ∀ other ∈ others, ∀ field ∈ request, other.1 ≠ fieldAddress path field.1)
    {field : String × Json} (hfield : field ∈ request) :
    acknowledged? (.array entries) (fieldAddress path field.1) = some field.2 := by
  rw [acknowledged?_array]
  refine Fields.value?_of_forall ?_ fun value hvalue => ?_
  · rw [hp.mem_iff]
    exact List.mem_append_left _ (List.mem_map.mpr ⟨field, hfield, rfl⟩)
  · rw [hp.mem_iff, List.mem_append] at hvalue
    rcases hvalue with hecho | hother
    · -- another field with this address would have the same key
      obtain ⟨⟨key, v⟩, hv, heq⟩ := List.mem_map.mp hecho
      rw [Prod.mk.injEq, fieldAddress_inj] at heq
      obtain ⟨rfl, rfl⟩ := heq
      have hfirst := (Fields.value?_eq_some_iff h).mpr hv
      have hsecond := (Fields.value?_eq_some_iff h).mpr hfield
      exact Option.some.inj (hfirst.symm.trans hsecond)
    · exact absurd rfl (hothers _ hother field hfield)

/-- **Arrangement.** Written to a path, with any number of slashes at its end, a request of distinct
fields is accepted by every reply that acknowledges each field with its own value under its address,
in any order and in any entries, and whatever it acknowledges for other addresses. And of two
replies that acknowledge the same, no address twice, in any order and in any entries, both give the
same answer, which is yes exactly if each field is acknowledged with an agreeing value. -/
theorem validation_ignores_arrangement (hbase : base.toList.getLast? ≠ some '/') (slashes : Nat)
    (hrequest : (Json.object request).WellFormed) :
    let path := base ++ String.ofList (List.replicate slashes '/')
    let address := fun key => base ++ "/" ++ key
    (∀ entries others, Unrefused entries →
      (acknowledgements entries).Perm
        (request.map (fun field => (address field.1, field.2)) ++ others) →
      (∀ other ∈ others, ∀ field ∈ request, other.1 ≠ address field.1) →
      validate path request (.array entries) = .ok true) ∧
    ∀ entries entries', Unrefused entries → Unrefused entries' →
      Distinct (acknowledgements entries) →
      (acknowledgements entries).Perm (acknowledgements entries') →
      ∃ accepted, validate path request (.array entries) = .ok accepted ∧
        validate path request (.array entries') = .ok accepted ∧
        (accepted = true ↔ ∀ field ∈ request, ∃ value,
          (address field.1, value) ∈ acknowledgements entries ∧ value.agrees field.2 = true) := by
  intro path address
  have haddress : address = fieldAddress path :=
    funext fun key => (fieldAddress_append_slashes hbase slashes key).symm
  obtain ⟨hdistinct, hwell⟩ := Json.wellFormed_object_iff.mp hrequest
  rw [haddress]
  refine ⟨fun entries others hunrefused hp hothers => ?_,
    fun entries entries' hunrefused hunrefused' hacknowledged hp => ?_⟩
  · rw [validate_array hunrefused, acknowledgesAll_iff.mpr fun field hfield => ?_]
    exact ⟨field.2, acknowledged?_of_echo hdistinct hp hothers hfield,
      field.2.agrees_self (hwell field hfield)⟩
  · refine ⟨_, validate_array hunrefused, ?_, ?_⟩
    · have hsame : acknowledges path (.array entries') = acknowledges path (.array entries) := by
        funext field
        rw [acknowledges, acknowledged?_perm hacknowledged hp]
        rfl
      rw [validate_array hunrefused', acknowledgesAll, hsame, acknowledgesAll]
    · rw [acknowledgesAll_iff]
      simp only [acknowledged?_array, Fields.value?_eq_some_iff hacknowledged]

/-- A lamp's name is acknowledged among its settings, in two entries or in three, and the path has
slashes at its end. -/
theorem lamp_acknowledged_in_two_arrangements :
    let path := "/lights/1/state" ++ String.ofList (List.replicate 2 '/')
    let on := ("/lights/1/state/on", Json.bool true)
    let bri := ("/lights/1/state/bri", Setter.level 200)
    let effect := ("/lights/1/state/effect", Json.string "none")
    let name := ("/lights/1/name", Json.string "Lamp")
    let success := fun fields => Json.object [("success", .object fields)]
    let request : Fields := [("bri", bri.2), ("on", on.2), ("effect", effect.2)]
    path = "/lights/1/state//" ∧ (Json.object request).WellFormed ∧
      validate path request (.array [success [on, bri], success [name, effect]]) = .ok true ∧
      validate path request (.array [success [bri], success [on], success [name, effect]]) =
        .ok true := by
  intro path on bri effect name success request
  have hbase : "/lights/1/state".toList.getLast? ≠ some '/' := by decide
  have hrequest : (Json.object request).WellFormed := by
    refine Json.wellFormed_object_iff.mpr ⟨?_, ?_⟩
    · show (Fields.keys request).Nodup
      decide
    · simp only [request, List.forall_mem_cons]
      exact ⟨trivial, trivial, trivial, nofun⟩
  have hunrefused : Unrefused [success [on, bri], success [name, effect]] := by
    simp only [Unrefused, List.forall_mem_cons]
    exact ⟨rfl, rfl, nofun⟩
  have hunrefused' : Unrefused [success [bri], success [on], success [name, effect]] := by
    simp only [Unrefused, List.forall_mem_cons]
    exact ⟨rfl, rfl, rfl, nofun⟩
  have hdistinct : Distinct (acknowledgements [success [on, bri], success [name, effect]]) := by
    show (Fields.keys [on, bri, name, effect]).Nodup
    decide
  have hname : ∀ other ∈ [name], ∀ field ∈ request,
      other.1 ≠ "/lights/1/state" ++ "/" ++ field.1 := by
    simp only [request, List.forall_mem_cons]
    exact ⟨⟨by decide, by decide, by decide, nofun⟩, nofun⟩
  obtain ⟨haccepted, hsame⟩ := validation_ignores_arrangement hbase 2 hrequest
  have hyes := haccepted [success [on, bri], success [name, effect]] [name] hunrefused
    ((List.Perm.swap bri on _).trans (((List.Perm.swap effect name _).cons on).cons bri)) hname
  obtain ⟨accepted, hfirst, hsecond, -⟩ := hsame _
    [success [bri], success [on], success [name, effect]] hunrefused hunrefused' hdistinct
    (List.Perm.swap bri on _)
  rw [hyes] at hfirst
  cases hfirst
  exact ⟨by decide, hrequest, hyes, hsecond⟩

end Reply

end LightBridge
