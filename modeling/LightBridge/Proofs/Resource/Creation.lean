import LightBridge.Proofs.Cache.Freshness
import LightBridge.Proofs.Change.Acknowledged
import LightBridge.Proofs.Resource.Entries
import LightBridge.Proofs.Resource.Existence

/-!
# Creating a resource

A bridge reports the id of what it created as a token: a text, a number, or the address of the new
resource below the path of the collection. All of them are read as the same id, and then the state
is read anew, once. When the bridge refuses, or reports nothing that is an id, nothing happens after
the request.
-/

namespace LightBridge

/-! ## Tokens -/

/-- A token and what is left of it without the path of a collection in front. -/
inductive Bare (path : String) : Json → Json → Prop where
  | cut (rest : String) :
    Bare path (.string (Text.trimSlashes path ++ "/" ++ rest)) (.string rest)
  | text (s : String) (h : ∀ rest, s ≠ Text.trimSlashes path ++ "/" ++ rest) :
    Bare path (.string s) (.string s)
  | other (token : Json) (h : ∀ s, token ≠ .string s) : Bare path token token

/-- What is left of a token without the path of a collection denotes an id. -/
def Decodes {ι : Type} [ResourceId ι] (path : String) (token : Json) (id : ι) : Prop :=
  ∃ bare, Bare path token bare ∧ ResourceId.ofToken? bare = some id

/-- The texts that stand for an id with a key: the key itself, and its address below a path. -/
def textTokens (path key : String) : List Json :=
  [.string key, .string (Text.trimSlashes path ++ "/" ++ key)]

section Tokens

variable {ι : Type} [ResourceId ι] {path : String} {token : Json}

theorem bare_iff {bare : Json} : Bare path token bare ↔ Collection.bareToken path token = bare := by
  constructor
  · intro hbare
    cases hbare with
    | cut rest =>
      rw [Collection.bareToken, Text.after?_eq_some_iff.mpr rfl, Option.getD_some]
    | text s h =>
      have hnone : Text.after? (Text.trimSlashes path ++ "/") s = none :=
        Option.eq_none_iff_forall_ne_some.mpr fun rest hrest =>
          h rest (Text.after?_eq_some_iff.mp hrest)
      rw [Collection.bareToken, hnone, Option.getD_none]
    | other _ h =>
      cases token with
      | string s => exact absurd rfl (h s)
      | _ => rfl
  · rintro rfl
    cases token with
    | string s =>
      rw [Collection.bareToken]
      cases hafter : Text.after? (Text.trimSlashes path ++ "/") s with
      | some rest =>
        rw [Text.after?_eq_some_iff.mp hafter]
        exact .cut rest
      | none =>
        -- a text that begins with the path would have been cut
        refine .text s fun rest hrest => ?_
        rw [Text.after?_eq_some_iff.mpr hrest] at hafter
        cases hafter
    | _ => exact .other _ fun s h => by cases h

theorem decodes_iff {id : ι} :
    Decodes path token id ↔ ResourceId.ofToken? (Collection.bareToken path token) = some id := by
  simp only [Decodes, bare_iff, exists_eq_left']

/-- A key that is no address itself is read from both texts that stand for it. -/
theorem decodes_of_mem_textTokens {id : ι} {key : String} (hkey : ResourceId.ofKey? key = some id)
    (hbare : ∀ rest, key ≠ Text.trimSlashes path ++ "/" ++ rest)
    (htoken : token ∈ textTokens path key) : Decodes path token id := by
  rcases List.mem_pair.mp htoken with rfl | rfl
  · exact ⟨.string key, .text key hbare, hkey⟩
  · exact ⟨.string key, .cut key, hkey⟩

/-- A decimal text is no address, whatever the path. -/
theorem int32Text_ne_address (id : Int32) (base rest : String) :
    int32Text id ≠ base ++ "/" ++ rest := by
  intro h
  apply Numeral.slash_notMem_ofInt id.toInt
  have htext : (int32Text id).toList = Numeral.ofInt id.toInt := String.toList_ofList
  rw [← htext, h, String.toList_append, String.toList_append]
  exact List.mem_append_left _ (List.mem_append_right _ List.mem_cons_self)

theorem decodes_int32 (path : String) (id : Int32)
    (htoken : token ∈ .number (.ofInt32 id) :: textTokens path (int32Text id)) :
    Decodes path token id := by
  have hkey : ResourceId.ofKey? (int32Text id) = some id := readInt32?_int32Text id
  rcases List.mem_cons.mp htoken with rfl | htext
  · -- a number is read from its text, which is the key
    exact ⟨_, .other _ (fun s h => by cases h), hkey⟩
  · exact decodes_of_mem_textTokens hkey (int32Text_ne_address id _) htext

theorem decodes_text (path : String) {id : String} (hid : id ≠ "")
    (hbare : ∀ rest, id ≠ Text.trimSlashes path ++ "/" ++ rest)
    (htoken : token ∈ textTokens path id) : Decodes path token id := by
  refine decodes_of_mem_textTokens ?_ hbare htoken
  show (if id.isEmpty then none else some id) = some id
  rw [if_neg (by simpa using hid)]

end Tokens

namespace Reply

/-- Some entry of a reply has an error. -/
def Refuses (reply : Json) : Prop :=
  ∃ entries, reply = .array entries ∧ ∃ entry ∈ entries, entry.get? "error" ≠ none

/-- The first entry of a reply tells that something was created, and gives its token. -/
def Creates (reply token : Json) : Prop :=
  ∃ entry rest success, reply = .array (entry :: rest) ∧ entry.get? "success" = some success ∧
    success.get? "id" = some token

variable {reply token : Json}

theorem check_of_not_refuses (h : ¬ Refuses reply) : check reply = .ok () := by
  cases reply with
  | array entries =>
    refine check_array_eq_ok_iff.mpr fun entry hentry => ?_
    by_contra herror
    exact h ⟨entries, rfl, entry, hentry, herror⟩
  | _ => rfl

theorem check_of_refuses (h : Refuses reply) :
    ∃ r, refusal? reply = some r ∧ check reply = .error (.refused r) := by
  obtain ⟨entries, rfl, entry, hentry, herror⟩ := h
  cases hrefusal : refusal? (.array entries) with
  | none =>
    have hok : check (.array entries) = .ok () := by rw [check, hrefusal]
    exact absurd (check_array_eq_ok_iff.mp hok entry hentry) herror
  | some r => exact ⟨r, rfl, by rw [check, hrefusal]⟩

theorem creates_iff : Creates reply token ↔ createdToken? reply = some token := by
  unfold createdToken? Creates
  simp only [Option.bind_eq_some_iff, Json.first?_eq_some_iff]
  constructor
  · rintro ⟨entry, rest, success, hreply, hsuccess, hid⟩
    exact ⟨success, ⟨entry, ⟨rest, hreply⟩, hsuccess⟩, hid⟩
  · rintro ⟨success, ⟨entry, ⟨rest, hreply⟩, hsuccess⟩, hid⟩
    exact ⟨entry, rest, success, hreply, hsuccess, hid⟩

end Reply

namespace Collection

variable {ι : Type} [ResourceId ι] {l : Collection ι} {parameters : Json} {w u : World}

/-! ## How a creation ends -/

/-- The request for a new resource was made, once, and what is cached is as before. -/
structure Posted (l : Collection ι) (parameters : Json) (w u : World) : Prop where
  sent : ∃ times : List Instant,
    (∀ d, l.channel.minDelay = .millis d →
      times.length = l.channel.attempts (l.channel.compose .post l.path parameters) w) ∧
    u.sent = w.sent ++ times.map (⟨·, l.channel.compose .post l.path parameters⟩)
  caches : Channel.SameCaches w u

/-- After the request, which ended in `u`, the root is fetched once, and the id is the result when
that succeeds. -/
structure Completed (l : Collection ι) (parameters : Json) (id : ι) (w u : World) : Prop where
  done : ∀ u', l.cache.refresh u = .ok () u' → l.create parameters w = .ok id u'
  failed : ∀ e u', l.cache.refresh u = .error e u' → l.create parameters w = .error e u'
  sent : l.cache.Live w → ∃ times : List Instant,
    (∀ d, l.cache.rootChannel.minDelay = .millis d → times.length =
      l.cache.rootChannel.attempts
        (l.cache.rootChannel.compose .get l.cache.rootPath (.object [])) u) ∧
    (after (l.create parameters) w).sent =
      u.sent ++ times.map (⟨·, l.cache.rootChannel.compose .get l.cache.rootPath (.object [])⟩)
  cut : ¬ l.cache.Live w → ∃ path, l.create parameters w = .error (.detached path) u

/-- What comes of a creation whose request was answered with a reply and ended in `u`. -/
structure Answered (l : Collection ι) (parameters : Json) (w : World) (reply : Json) (u : World) :
    Prop where
  posted : Posted l parameters w u
  refused : Reply.Refuses reply →
    ∃ r, Reply.refusal? reply = some r ∧ l.create parameters w = .error (.refused r) u
  created : ¬ Reply.Refuses reply → ∀ token id, Reply.Creates reply token →
    Decodes l.path token id → Completed l parameters id w u
  unusable : ¬ Reply.Refuses reply →
    (∀ token (id : ι), Reply.Creates reply token → ¬ Decodes l.path token id) →
    l.create parameters w = .ok ResourceId.missing u

/-- What comes of a creation. -/
structure CreationLaw [DecidableEq ι] (l : Collection ι) (parameters : Json) (w : World) :
    Prop where
  failed : ∀ e u, l.channel.request .post l.path parameters w = .error e u →
    l.create parameters w = .error e u ∧ Posted l parameters w u
  answered : ∀ reply u, l.channel.request .post l.path parameters w = .ok reply u →
    Answered l parameters w reply u
  /-- The collection itself stays as it is. -/
  kept : after (perform (.create parameters)) (l, w) = (l, after (l.create parameters) w)

/-- The id that the reply to a creation below a path gives. -/
def createdId? (path : String) (reply : Json) : Option ι :=
  (Reply.createdToken? reply).bind fun token => ResourceId.ofToken? (bareToken path token)

theorem createdId?_eq_some_iff {path : String} {reply : Json} {id : ι} :
    createdId? path reply = some id ↔
      ∃ token, Reply.Creates reply token ∧ Decodes path token id := by
  simp only [createdId?, Option.bind_eq_some_iff, Reply.creates_iff, decodes_iff]

/-- What a creation makes of the reply. -/
theorem create_eq (l : Collection ι) (parameters : Json) (w : World) :
    l.create parameters w =
      match l.channel.request .post l.path parameters w with
      | .error e u => .error e u
      | .ok reply u =>
        match Reply.check reply with
        | .error e => .error e u
        | .ok () =>
          match createdId? l.path reply with
          | none => .ok ResourceId.missing u
          | some id =>
            match l.cache.refresh u with
            | .error e u' => .error e u'
            | .ok () u' => .ok id u' := by
  simp only [create, createdId?, bind, EStateM.bind]
  cases l.channel.request .post l.path parameters w with
  | error e u => rfl
  | ok reply u =>
    dsimp only
    cases Reply.check reply with
    | error e => rfl
    | ok _ =>
      dsimp only [Act.ofExcept, pure, EStateM.pure]
      cases ((Reply.createdToken? reply).bind fun token =>
          (ResourceId.ofToken? (bareToken l.path token) : Option ι)) with
      | none => rfl
      | some id =>
        dsimp only
        simp only [EStateM.bind]
        cases l.cache.refresh u <;> rfl

omit [ResourceId ι] in
theorem posted_request (l : Collection ι) (parameters : Json) (w : World) :
    Posted l parameters w (after (l.channel.request .post l.path parameters) w) where
  sent := l.channel.exists_times_of_request ..
  caches := l.channel.sameCaches_request ..

section Ends

variable {reply : Json} (hrequest : l.channel.request .post l.path parameters w = .ok reply u)
include hrequest

theorem create_of_refuses (h : Reply.Refuses reply) :
    ∃ r, Reply.refusal? reply = some r ∧ l.create parameters w = .error (.refused r) u := by
  obtain ⟨r, hrefusal, hcheck⟩ := Reply.check_of_refuses h
  exact ⟨r, hrefusal, by simp only [create_eq, hrequest, hcheck]⟩

theorem create_of_unusable (h : ¬ Reply.Refuses reply)
    (hnone : ∀ token (id : ι), Reply.Creates reply token → ¬ Decodes l.path token id) :
    l.create parameters w = .ok ResourceId.missing u := by
  have hid : (createdId? l.path reply : Option ι) = none := by
    refine Option.eq_none_iff_forall_ne_some.mpr fun id hid => ?_
    obtain ⟨token, htoken, hdecodes⟩ := createdId?_eq_some_iff.mp hid
    exact hnone token id htoken hdecodes
  simp only [create_eq, hrequest, Reply.check_of_not_refuses h, hid]

theorem create_of_decodes {token : Json} {id : ι} (h : ¬ Reply.Refuses reply)
    (htoken : Reply.Creates reply token) (hid : Decodes l.path token id) :
    l.create parameters w =
      match l.cache.refresh u with
      | .error e u' => .error e u'
      | .ok () u' => .ok id u' := by
  have hcreated : createdId? l.path reply = some id :=
    createdId?_eq_some_iff.mpr ⟨token, htoken, hid⟩
  simp only [create_eq, hrequest, Reply.check_of_not_refuses h, hcreated]

theorem completed_of_decodes {token : Json} {id : ι} (h : ¬ Reply.Refuses reply)
    (htoken : Reply.Creates reply token) (hid : Decodes l.path token id) :
    Completed l parameters id w u := by
  have hcreate := create_of_decodes hrequest h htoken hid
  -- the request leaves the links to the root as they were
  have hlinked : l.cache.linked u = l.cache.linked w :=
    Cache.linked_congr (Channel.sameCaches_of_request hrequest).held l.cache
  refine ⟨fun u' hu => ?_, fun e u' hu => ?_, fun hlive => ?_, fun hcut => ?_⟩
  · rw [hcreate, hu]
  · rw [hcreate, hu]
  · have hfetch : l.cache.refresh u =
        Cache.fetch l.cache.rootNode l.cache.rootPath l.cache.rootChannel u := by
      rw [Cache.refresh_eq, hlinked, Cache.linked_eq_ok_iff.mpr hlive]
    have hafter : after (l.create parameters) w =
        after (Cache.fetch l.cache.rootNode l.cache.rootPath l.cache.rootChannel) u := by
      rw [after, hcreate, hfetch, after]
      cases Cache.fetch l.cache.rootNode l.cache.rootPath l.cache.rootChannel u <;> rfl
    rw [hafter]
    exact Cache.sent_fetch ..
  · cases hw : l.cache.linked w with
    | ok _ => exact absurd (Cache.linked_eq_ok_iff.mp hw) hcut
    | error e =>
      obtain ⟨path, rfl⟩ := Cache.linked_error hw
      refine ⟨path, ?_⟩
      rw [hcreate, Cache.refresh_eq, hlinked, hw]

theorem answered_of_request : Answered l parameters w reply u where
  posted := by
    rw [← after_of_ok hrequest]
    exact posted_request l parameters w
  refused := create_of_refuses hrequest
  created haccepted _ _ htoken hid := completed_of_decodes hrequest haccepted htoken hid
  unusable := create_of_unusable hrequest

end Ends

theorem creation_lawful [DecidableEq ι] (l : Collection ι) (parameters : Json) (w : World) :
    CreationLaw l parameters w where
  failed e u h := by
    refine ⟨by simp only [create_eq, h], ?_⟩
    rw [← after_of_error h]
    exact posted_request l parameters w
  answered _ _ := answered_of_request
  kept := by
    rw [perform, after_map, after_reading]

/-- **Creation.** A creation makes one request. When that fails, or the bridge refuses, it fails
with that error; when the reply has no token, or one that denotes no id, the result is the missing
id; and nothing happens after the request. When the token denotes an id, the state is fetched once,
and the id is the result if that succeeds. A whole number is denoted by itself, its decimal text and
its address below the path; a text that is not empty and no such address itself, by itself and by
its address. -/
theorem creation_decodes_every_token :
    (∀ (ι : Type) [DecidableEq ι] [ResourceId ι] (l : Collection ι) (parameters : Json) (w : World),
      CreationLaw l parameters w) ∧
    (∀ (path : String) (id : Int32),
      ∀ token ∈ .number (.ofInt32 id) :: textTokens path (int32Text id), Decodes path token id) ∧
    ∀ path id : String, id ≠ "" → (∀ rest, id ≠ Text.trimSlashes path ++ "/" ++ rest) →
      ∀ token ∈ textTokens path id, Decodes path token id :=
  ⟨fun _ _ _ l parameters w => creation_lawful l parameters w,
    fun path id _ htoken => decodes_int32 path id htoken,
    fun path _ hid hbare _ htoken => decodes_text path hid hbare htoken⟩

/-- The bridge reports a new scene by its address, below a path with a slash at its end; then the
scenes are fetched once. The least number is read from its address as well. -/
theorem scene_created_under_its_address :
    let channel : Channel := ⟨"192.168.2.116", 80, "user", .millis 0, 1, 0⟩
    let script := Script.ofLines 0
      [.once .post "/api/user/scenes/"
          (.ok "[\x7b\"success\":\x7b\"id\":\"/scenes/ab1\"\x7d\x7d]"),
        .once .get "/api/user/scenes/" (.ok "\x7b\"ab1\":\x7b\x7d\x7d")]
    let w : World := { World.start with
      transports := Table.empty.set 0 script, slots := Table.empty.set 1 0, held := [2]
      fresh := 3 }
    let l : Collection String :=
      .ofCache channel "/scenes/" (.root 2 "/scenes/" channel .never)
    let parameters := Json.object [("name", .string "Evening")]
    (∃ reply u, l.channel.request .post l.path parameters w = .ok reply u ∧
      ¬ Reply.Refuses reply ∧ Reply.Creates reply (.string "/scenes/ab1") ∧
      Decodes l.path (.string "/scenes/ab1") "ab1" ∧ Completed l parameters "ab1" w u) ∧
    outcome (l.create parameters) w = .ok "ab1" ∧
    (after (l.create parameters) w).sent.map (·.request.method) = [.post, .get] ∧
    Decodes "/lights" (.string "/lights/-2147483648") (-2147483648 : Int32) := by
  intro channel script w l parameters
  have hreply : ((outcome (l.channel.request .post l.path parameters) w).toOption.bind fun reply =>
      if Reply.check reply |>.isOk then (Reply.createdToken? reply).bind Json.string? else none) =
      some "/scenes/ab1" := by decide +kernel
  have hid : (outcome (l.create parameters) w).toOption = some "ab1" := by decide +kernel
  have hsent : (after (l.create parameters) w).sent.map (·.request.method) = [.post, .get] := by
    decide +kernel
  have hpath : Text.trimSlashes l.path = "/scenes" := by decide +kernel
  have haddress : .string "/scenes/ab1" ∈ textTokens l.path "ab1" := by
    rw [textTokens, hpath]
    exact List.mem_pair.mpr (.inr rfl)
  have hleast : .string "/lights/-2147483648" ∈ textTokens "/lights" (int32Text (-2147483648)) := by
    have hkey : int32Text (-2147483648) = "-2147483648" := by decide +kernel
    have hlights : Text.trimSlashes "/lights" = "/lights" := by decide +kernel
    rw [textTokens, hkey, hlights]
    exact List.mem_pair.mpr (.inr rfl)
  -- What the world is does not matter any more, and unfolding it would make the requests.
  clear_value w
  obtain ⟨hlaw, hnumber, htext⟩ := creation_decodes_every_token
  have hdecodes : Decodes l.path (.string "/scenes/ab1") "ab1" := by
    refine htext l.path "ab1" (by decide) (fun rest h => ?_) _ haddress
    rw [hpath] at h
    have hhead := congrArg (·.toList.head?) h
    simp at hhead
  obtain ⟨reply, houtcome, htoken⟩ := Option.bind_eq_some_iff.mp hreply
  obtain ⟨hcheck, hstring⟩ := Option.ite_none_right_eq_some.mp htoken
  obtain ⟨token, hcreated, hvalue⟩ := Option.bind_eq_some_iff.mp hstring
  have hrequest := eq_ok_of_outcome (eq_ok_of_toOption houtcome)
  have haccepted : ¬ Reply.Refuses reply := by
    intro hrefuses
    obtain ⟨r, -, herror⟩ := Reply.check_of_refuses hrefuses
    rw [herror] at hcheck
    cases hcheck
  have hcreates : Reply.Creates reply (.string "/scenes/ab1") := by
    rw [Reply.creates_iff, hcreated]
    cases token <;> cases hvalue
    rfl
  exact ⟨⟨reply, _, hrequest, haccepted, hcreates, hdecodes,
      ((hlaw String l parameters w).answered _ _ hrequest).created haccepted _ _ hcreates hdecodes⟩,
    eq_ok_of_toOption hid, hsent, hnumber "/lights" _ _ (List.mem_cons_of_mem _ hleast)⟩

end Collection

end LightBridge
