import LightBridge.Proofs.Cache.Freshness

/-!
# What fetches send

A fetch sends the request for the path of its root, once or twice, between the instants at which it
begins and ends. Where nothing else reads from a bridge, what a world has recorded of its reads is
what its fetches have sent.
-/

namespace LightBridge

/-- What a fetch sends is the request for the path of its root, through the channel of the root. With
a finite delay it goes out once or twice, and it does so between the begin and the end. -/
structure Fetched.SentAt (f : Fetched) (times : List Instant) : Prop where
  sent : f.sent = times.map (⟨·, f.channel.compose .get f.path (.object [])⟩)
  count : ∀ d, f.channel.minDelay = .millis d → times.length = 1 ∨ times.length = 2
  meanwhile : ∀ time ∈ times, f.began ≤ time ∧ time ≤ f.ended

/-- A deed that reads from a bridge by fetching only. -/
def Deed.Quiet : Deed → Prop
  | .event (.attempt _ r) => r.method ≠ .get
  | _ => True

namespace World

/-- What was read from a bridge so far. -/
def reads (w : World) : List Sent := w.sent.filter fun s => s.request.method = .get

variable {w : World} {d : Deed} {deeds : List Deed} {f : Fetched}

/-- What goes out in several events goes out while they take place. -/
theorem sentAt_of_mem_sends {events : List Event} {x : Send} (hx : x ∈ w.sends events) :
    w.now ≤ x.sent.sentAt ∧ x.sent.sentAt ≤ (w.play events).now := by
  induction events generalizing w with
  | nil => nomatch hx
  | cons e rest ih =>
    rw [sends_cons] at hx
    rcases List.mem_append.mp hx with hx | hx
    · obtain rfl := eq_attempt_of_mem_sendsOf hx
      cases hd : x.channel.minDelay with
      | never =>
        rw [sendsOf_attempt_never hd] at hx
        nomatch hx
      | millis n =>
        rw [sendsOf_attempt hd, List.mem_singleton] at hx
        have hsent : x.sent.sentAt = x.channel.sendTime w := congrArg (·.sent.sentAt) hx
        have hnow := Channel.sendTime_le_now_attempt hd x.sent.request w
        rw [hsent]
        exact ⟨x.channel.now_le_sendTime w, Nat.le_trans hnow (now_le_play _ rest)⟩
    · obtain ⟨hbegan, hended⟩ := ih hx
      exact ⟨Nat.le_trans (w.now_le_step e) hbegan, hended⟩

/-! ## One fetch -/

theorem sent_enact_of_fetched (hf : w.fetched? d = some f) : (w.enact d).sent = w.sent ++ f.sent := by
  cases d with
  | event | update => nomatch hf
  | fetch node path channel interval =>
    cases hf
    obtain ⟨times, -, hsent⟩ := Cache.sent_fetch node path channel w
    have hanswered : (Cache.answered path channel w).sent = (w.enact (.fetch node path channel
        interval)).sent := by
      rw [enact]
      cases hanswer : Cache.answer path channel w with
      | ok reply => rw [Cache.after_fetch_of_ok hanswer]; rfl
      | error e => rw [Cache.after_fetch_of_error hanswer]
    rw [hanswered, enact, hsent, List.drop_left]

theorem exists_times_of_fetched (hf : w.fetched? d = some f) : ∃ times, f.SentAt times := by
  cases d with
  | event | update => nomatch hf
  | fetch node path channel interval =>
    cases hf
    let r := channel.compose .get path (.object [])
    obtain ⟨times, hlength, hsent⟩ := channel.exists_times_of_request .get path (.object []) w
    have hdrop : (Cache.answered path channel w).sent.drop w.sent.length = times.map (⟨·, r⟩) := by
      rw [Cache.answered, hsent, List.drop_left]
    refine ⟨times, hdrop, fun d hd => ?_, fun time htime => ?_⟩
    · rw [hlength d hd]
      exact channel.attempts_eq_one_or_two r w
    · -- each time is that of one of the attempts
      have hplay : Cache.answered path channel w =
          w.play (List.replicate (channel.attempts r w) (.attempt channel r)) :=
        channel.after_request ..
      have hmem : (⟨time, r⟩ : Sent) ∈ times.map (⟨·, r⟩) := List.mem_map_of_mem htime
      rw [← hdrop, hplay, sent_play, List.drop_left] at hmem
      obtain ⟨x, hx, hxsent⟩ := List.mem_map.mp hmem
      have hbounds := sentAt_of_mem_sends hx
      rw [hxsent, ← hplay] at hbounds
      exact hbounds

/-! ## Several deeds -/

theorem reads_enact (hd : d.Quiet) :
    (w.enact d).reads = w.reads ++ (w.fetched? d).toList.flatMap (·.sent) := by
  cases d with
  | event e =>
    have hnone : ((w.sendsOf e).map (·.sent)).filter (fun s => s.request.method = .get) = [] := by
      rw [List.filter_eq_nil_iff]
      intro s hs hget
      obtain ⟨x, hx, rfl⟩ := List.mem_map.mp hs
      obtain rfl := eq_attempt_of_mem_sendsOf hx
      exact hd (of_decide_eq_true hget)
    rw [enact, reads, sent_step, List.filter_append, hnone]
    rfl
  | update c f =>
    have hsent : (w.enact (.update c f)).sent = w.sent := by
      rw [enact]
      cases hview : c.view w with
      | error e => rw [after_of_error (Cache.patch_of_view_error hview f)]
      | ok v =>
        obtain ⟨s, -, -, hpatch⟩ := Cache.patch_of_view hview f
        rw [after_of_ok hpatch]
    rw [reads, hsent]
    exact (List.append_nil _).symm
  | fetch node path channel interval =>
    have hf : w.fetched? (.fetch node path channel interval) = some _ := rfl
    obtain ⟨times, htimes⟩ := exists_times_of_fetched hf
    let r := channel.compose .get path (.object [])
    have hall : ∀ s ∈ times.map (⟨·, r⟩ : Instant → Sent),
        decide (s.request.method = .get) = true := by
      intro s hs
      obtain ⟨time, -, rfl⟩ := List.mem_map.mp hs
      rfl
    rw [reads, sent_enact_of_fetched hf, List.filter_append, htimes.sent, List.filter_eq_self.mpr hall,
      ← htimes.sent]
    exact congrArg (w.reads ++ ·) (List.append_nil _).symm

/-- Where nothing is read but by fetching, what was read is what the fetches have sent, in order. -/
theorem reads_enactAll (hdeeds : ∀ d ∈ deeds, d.Quiet) :
    (w.enactAll deeds).reads = w.reads ++ (w.fetches deeds).flatMap (·.sent) := by
  induction deeds generalizing w with
  | nil => exact (List.append_nil _).symm
  | cons d rest ih =>
    have hrest := ih (w := w.enact d) fun d' hd' => hdeeds d' (List.mem_cons_of_mem d hd')
    rw [enactAll_cons, hrest, reads_enact (hdeeds d List.mem_cons_self), fetches, List.flatMap_append,
      List.append_assoc]

theorem exists_of_mem_fetches (hf : f ∈ w.fetches deeds) :
    ∃ (v : World) (d : Deed), d ∈ deeds ∧ v.fetched? d = some f := by
  induction deeds generalizing w with
  | nil => nomatch hf
  | cons d rest ih =>
    rcases List.mem_append.mp hf with hf | hf
    · exact ⟨w, d, List.mem_cons_self, Option.mem_toList.mp hf⟩
    · obtain ⟨v, d', hd', hf'⟩ := ih hf
      exact ⟨v, d', List.mem_cons_of_mem d hd', hf'⟩

end World

end LightBridge
