import MeshClient.AutoResend.Controller

namespace MeshClient.AutoResend

open Run
open Incident (MeshProtocol)

def Happening.lineage : Happening → Nat
  | .resent l => l
  | .ended l _ => l
  | .cancelled l => l

-- Nothing has ended the lineage or called it off.
def Live (history : List Happening) (l : Nat) : Prop := ∀ x ∈ history, x.lineage = l → x = .resent l

theorem Bounded.append {history : List Happening} (h : Bounded history) {x : Happening}
    (hlive : ¬(∃ l, x = .cancelled l) → Live history x.lineage)
    (hroom : ∀ l, x = .resent l → history.count (.resent l) < REGULAR_MESSAGE_MAX_AUTO_RESENDS) :
    Bounded (history ++ [x]) := by
  refine ⟨fun l => ?_, fun l => ?_, fun l before after hsplit hstop hresent => ?_⟩
  · rw [List.count_append, List.count_singleton]
    split_ifs with hx
    · exact hroom l (eq_of_beq hx)
    · exact h.resends l
  · rw [List.countP_append, List.countP_singleton]
    split_ifs with hx
    · have hzero : history.countP (Happening.endsAs l) = 0 := by
        refine List.countP_eq_zero.mpr fun y hy hends => ?_
        have hlineage : x.lineage = l ∧ y.lineage = l := by
          cases x <;> cases y <;> simp_all [Happening.endsAs, Happening.lineage]
        have hlast := hlive (by rintro ⟨_, rfl⟩; simp [Happening.endsAs] at hx) y hy
          (hlineage.2.trans hlineage.1.symm)
        rw [hlast] at hends
        cases hends
      omega
    · exact h.outcomes l
  · rcases List.eq_nil_or_concat after with rfl | ⟨after, last, rfl⟩
    · cases hresent
    · rw [List.concat_eq_append] at hsplit hresent
      rw [← List.append_assoc] at hsplit
      obtain ⟨hbefore, hlast⟩ := List.append_inj' hsplit rfl
      obtain rfl : x = last := List.singleton_inj.mp hlast
      rcases List.mem_append.mp hresent with hresent | hresent
      · exact h.stopped l before after hbefore hstop hresent
      · obtain rfl := List.mem_singleton.mp hresent
        obtain ⟨y, hy, hstops⟩ := List.any_eq_true.mp hstop
        have hlineage : y.lineage = l := by
          cases y <;> simp_all [Happening.stops, Happening.lineage]
        have hlast := hlive (by simp) y (hbefore ▸ List.mem_append_left _ hy) hlineage
        rw [hlast] at hstops
        cases hstops

-- Both counters of every lineage agree with the resends it has had.
structure Kept (s : Controller) (g : Lineages) : Prop where
  fresh : ∀ k ∈ s.tracked.keys, g.of' k < g.next
  known : ∀ x ∈ g.history, x.lineage < g.next
  live : ∀ k ∈ s.tracked.keys, Live g.history (g.of' k)
  single : ∀ k ∈ s.tracked.keys, ∀ k' ∈ s.tracked.keys, g.of' k = g.of' k' → g.sending ≠ some (g.of' k) → k = k'
  count : ∀ k info, s.tracked.get? k = some info → g.sending ≠ some (g.of' k) →
    g.history.count (.resent (g.of' k)) = info.resendsUsed
  nested : ∀ k info, s.tracked.get? k = some info → g.sending = some (g.of' k) → info.resendsUsed = 0
  entry : ∀ k e, s.entries.get? k = some e → ∃ info, s.tracked.get? k = some info ∧
    e.attempt = info.resendsUsed + 1 ∧ e.attempt ≤ REGULAR_MESSAGE_MAX_AUTO_RESENDS
  call : ∀ call, s.call = some call → ∃ l, g.sending = some l ∧ l < g.next ∧ Live g.history l ∧
    g.history.count (.resent l) = call.entry.attempt
  idle : s.call = none → g.sending = none
  awaited : ∀ k ∈ g.awaited, k ∈ s.tracked.keys
  bounded : Bounded g.history

variable {s s' : Controller} {g : Lineages} {key : AutoResendKey} {info : TrackedOutbound}

theorem mem_tracked (h : s.tracked.get? key = some info) : key ∈ s.tracked.keys :=
  (OrderedMap.mem_keys_iff _ _).mpr ⟨info, h⟩

theorem Live.append {history : List Happening} {l : Nat} {x : Happening} (h : Live history l)
    (hx : x.lineage = l → x = .resent l) : Live (history ++ [x]) l := by
  intro y hy hlineage
  rcases List.mem_append.mp hy with hy | hy
  · exact h y hy hlineage
  · obtain rfl := List.mem_singleton.mp hy
    exact hx hlineage

theorem count_append_of_ne {history : List Happening} {l : Nat} {x : Happening} (hx : x ≠ .resent l) :
    (history ++ [x]).count (.resent l) = history.count (.resent l) := by
  rw [List.count_append, List.count_singleton, if_neg (by simpa using hx), Nat.add_zero]

-- A tracked bubble whose lineage ends leaves, with its scheduled resend.
theorem Kept.leave (h : Kept s g) (hinfo : s.tracked.get? key = some info)
    (hother : g.sending ≠ some (g.of' key)) {x : Happening} (hx : x.lineage = g.of' key)
    (hends : ∀ l, x ≠ .resent l) (htracked : s'.tracked = s.tracked.erase key)
    (hentries : ∀ k, s'.entries.get? k = if k = key then none else s.entries.get? k)
    (hcall : s'.call = s.call) : Kept s' ((g.arrived key).record x) := by
  have hget : ∀ k info', s'.tracked.get? k = some info' → k ≠ key ∧ s.tracked.get? k = some info' := by
    intro k info' hk
    rw [htracked, OrderedMap.get?_erase] at hk
    split_ifs at hk with hne
    exact ⟨hne, hk⟩
  have hkeys : ∀ k ∈ s'.tracked.keys, k ≠ key ∧ k ∈ s.tracked.keys := by
    intro k hk
    obtain ⟨info', hk⟩ := (OrderedMap.mem_keys_iff _ _).mp hk
    exact ⟨(hget k info' hk).1, mem_tracked (hget k info' hk).2⟩
  have hkey := mem_tracked hinfo
  have hlineage : ∀ k ∈ s'.tracked.keys, g.of' k ≠ x.lineage := by
    intro k hk heq
    exact (hkeys k hk).1 (h.single key hkey k (hkeys k hk).2 (hx.symm.trans heq.symm) hother).symm
  refine ⟨fun k hk => h.fresh k (hkeys k hk).2, ?_, ?_, ?_, ?_, ?_, ?_, ?_, ?_, ?_, ?_⟩
  · intro y hy
    rcases List.mem_append.mp hy with hy | hy
    · exact h.known y hy
    · rw [List.mem_singleton.mp hy, hx]
      exact h.fresh key hkey
  · exact fun k hk => (h.live k (hkeys k hk).2).append fun he => absurd he.symm (hlineage k hk)
  · exact fun k hk k' hk' => h.single k (hkeys k hk).2 k' (hkeys k' hk').2
  · intro k info' hk hs
    exact (count_append_of_ne (hends _)).trans (h.count k info' (hget k info' hk).2 hs)
  · exact fun k info' hk => h.nested k info' (hget k info' hk).2
  · intro k e he
    rw [hentries] at he
    split_ifs at he with hne
    obtain ⟨info', hk, hattempt⟩ := h.entry k e he
    refine ⟨info', ?_, hattempt⟩
    rw [htracked, OrderedMap.get?_erase, if_neg hne, hk]
  · intro call hc
    obtain ⟨l, hl, hnext, hlive, hcount⟩ := h.call call (hcall ▸ hc)
    have hne : l ≠ x.lineage := fun he => hother (hl.trans (congrArg some (he.trans hx)))
    exact ⟨l, hl, hnext, hlive.append fun he => absurd he.symm hne, (count_append_of_ne (hends _)).trans hcount⟩
  · exact fun hc => h.idle (hcall ▸ hc)
  · intro k hk
    obtain ⟨hk, hne⟩ := List.mem_filter.mp hk
    rw [OrderedMap.mem_keys_iff, htracked, OrderedMap.get?_erase, if_neg (by simpa using hne),
      ← OrderedMap.mem_keys_iff]
    exact h.awaited k hk
  · exact h.bounded.append (fun _ => hx ▸ h.live key hkey) fun l he => absurd he (hends l)

theorem Kept.schedule (h : Kept s g) (hinfo : s.tracked.get? key = some info)
    (hroom : info.resendsUsed < REGULAR_MESSAGE_MAX_AUTO_RESENDS) (now : Int) :
    Kept (schedule s key info now) g := by
  refine ⟨h.fresh, h.known, h.live, h.single, h.count, h.nested, ?_, h.call, h.idle, h.awaited, h.bounded⟩
  intro k e he
  unfold AutoResend.schedule at he
  rw [OrderedMap.get?_set] at he
  split_ifs at he with hk
  · obtain rfl := Option.some.inj he
    exact ⟨info, hk ▸ hinfo, rfl, hroom⟩
  · exact h.entry k e he

theorem evaluateOne_others {start : OrderedMap AutoResendKey AutoResendEntry} {now : Int}
    (s : Controller) (key : AutoResendKey) (info : TrackedOutbound) {k : AutoResendKey} (hk : k ≠ key) :
    ((evaluateOne start now s key info).1.tracked.get? k = s.tracked.get? k ∧
      (evaluateOne start now s key info).1.entries.get? k = s.entries.get? k) ∧
      (evaluateOne start now s key info).1.messages = s.messages ∧
      (evaluateOne start now s key info).1.call = s.call := by
  unfold evaluateOne
  split
  · exact ⟨⟨rfl, rfl⟩, rfl, rfl⟩
  · split_ifs
    · exact ⟨⟨by simp [Controller.untrack, Controller.clearEntry, OrderedMap.get?_erase, hk],
        by simp [Controller.untrack, Controller.clearEntry, OrderedMap.get?_erase, hk]⟩, rfl, rfl⟩
    · exact ⟨⟨rfl, rfl⟩, rfl, rfl⟩
    · exact ⟨⟨by simp [Controller.untrack, OrderedMap.get?_erase, hk], rfl⟩, rfl, rfl⟩
    · exact ⟨⟨rfl, by simp [schedule, OrderedMap.get?_set, hk]⟩, rfl, rfl⟩

theorem evaluateOne_kept {start : OrderedMap AutoResendKey AutoResendEntry} {now : Int} (h : Kept s g)
    (hinfo : s.tracked.get? key = some info) (hstart : key ∈ start.keys ↔ key ∈ s.entries.keys)
    (hown : g.sending = some (g.of' key) →
      statusIs s.messages info.identityId key.messageId .acked = false) :
    Kept (evaluateOne start now s key info).1 (g.note (evaluateOne start now s key info).2) := by
  unfold evaluateOne
  cases hrecord : s.messages info.identityId key.messageId with
  | none => exact h
  | some record =>
      dsimp only
      split_ifs with hacked hskip hspent
      · refine h.leave hinfo (fun hs => ?_) rfl (by simp) rfl (fun k => OrderedMap.get?_erase _ _ _) rfl
        have hstatus := hown hs
        simp [statusIs, hrecord, hacked] at hstatus
      · exact h
      · have hentries : s.entries.get? key = none := by
          rw [OrderedMap.get?_eq_none_iff, ← hstart]
          exact (not_or.mp hskip).2
        refine h.leave hinfo (fun hs => ?_) rfl (by simp) rfl (fun k => ?_) rfl
        · have hzero := h.nested key info hinfo hs
          rw [hzero] at hspent
          exact absurd hspent (by decide)
        · split_ifs with hk
          · exact hk ▸ hentries
          · rfl
      · exact h.schedule hinfo (not_le.mp hspent) now

theorem note_append (g : Lineages) (first second : List Effect) :
    g.note (first ++ second) = (g.note first).note second := List.foldl_append

theorem noteOne_of' (g : Lineages) (effect : Effect) : (g.noteOne effect).of' = g.of' := by
  cases effect <;> rfl

theorem note_of' (g : Lineages) (effects : List Effect) : (g.note effects).of' = g.of' := by
  induction effects generalizing g with
  | nil => rfl
  | cons effect rest ih => exact (ih (g.noteOne effect)).trans (noteOne_of' g effect)

theorem evaluateOne_sending {start : OrderedMap AutoResendKey AutoResendEntry} {now : Int} :
    (g.note (evaluateOne start now s key info).2).sending = g.sending := by
  unfold evaluateOne
  split
  · rfl
  · split_ifs <;> rfl

theorem evaluateAll_kept {start : OrderedMap AutoResendKey AutoResendEntry} {now : Int}
    {items : List (AutoResendKey × TrackedOutbound)} (hnodup : (items.map Prod.fst).Nodup) (h : Kept s g)
    (hitems : ∀ e ∈ items, s.tracked.get? e.1 = some e.2 ∧ (e.1 ∈ start.keys ↔ e.1 ∈ s.entries.keys))
    (hown : ∀ e ∈ items, g.sending = some (g.of' e.1) →
      statusIs s.messages e.2.identityId e.1.messageId .acked = false) :
    Kept (evaluateAll start now s items).1 (g.note (evaluateAll start now s items).2) := by
  induction items generalizing s g with
  | nil => exact h
  | cons item rest ih =>
      obtain ⟨key, info⟩ := item
      obtain ⟨hnew, hrest⟩ := List.nodup_cons.mp hnodup
      have hitem := hitems _ List.mem_cons_self
      have hone := @evaluateOne_kept _ _ _ _ _ now h hitem.1 hitem.2 (hown _ List.mem_cons_self)
      have hne : ∀ e ∈ rest, e.1 ≠ key := fun e he heq =>
        hnew (List.mem_map.mpr ⟨e, he, heq⟩)
      unfold evaluateAll
      dsimp only
      rw [note_append]
      refine ih hrest hone (fun e he => ?_) (fun e he => ?_)
      · obtain ⟨⟨htracked, hentries⟩, _, _⟩ := @evaluateOne_others start now s key info _ (hne e he)
        have hold := hitems e (List.mem_cons_of_mem _ he)
        rw [htracked, OrderedMap.mem_keys_iff, OrderedMap.mem_keys_iff, hentries, ← OrderedMap.mem_keys_iff,
          ← OrderedMap.mem_keys_iff]
        exact hold
      · obtain ⟨_, hmessages, _⟩ := @evaluateOne_others start now s key info _ (hne e he)
        rw [evaluateOne_sending, note_of', hmessages]
        exact hown e (List.mem_cons_of_mem _ he)

theorem evaluate_kept {now : Int} (h : Kept s g)
    (hown : ∀ k info, s.tracked.get? k = some info → g.sending = some (g.of' k) →
      statusIs s.messages info.identityId k.messageId .acked = false) :
    Kept (evaluateTrackedOutbound s now).1 (g.note (evaluateTrackedOutbound s now).2) :=
  evaluateAll_kept s.tracked.nodup h
    (fun _ he => ⟨(OrderedMap.mem_entries_iff _ _ _).mp he, Iff.rfl⟩)
    fun e he => hown e.1 e.2 ((OrderedMap.mem_entries_iff _ _ _).mp he)

theorem Kept.of_messages (h : Kept s g) (messages : String → String → Option MessageRecord) :
    Kept { s with messages } g :=
  ⟨h.fresh, h.known, h.live, h.single, h.count, h.nested, h.entry, h.call, h.idle, h.awaited, h.bounded⟩

theorem Kept.of_running (h : Kept s g) (running : Bool) : Kept { s with running } g :=
  ⟨h.fresh, h.known, h.live, h.single, h.count, h.nested, h.entry, h.call, h.idle, h.awaited, h.bounded⟩

theorem Kept.changed (h : Kept s g) (messages : String → String → Option MessageRecord) (now : Int)
    (hown : s.running = true → ∀ k info, s.tracked.get? k = some info → g.sending = some (g.of' k) →
      statusIs messages info.identityId k.messageId .acked = false) :
    Kept (s.changed messages now).1 (g.note (s.changed messages now).2) := by
  unfold Controller.changed
  split_ifs with hrunning
  · exact evaluate_kept (h.of_messages messages) (hown hrunning)
  · exact h.of_messages messages

theorem Kept.clearEntry (h : Kept s g) (key : AutoResendKey) : Kept (s.clearEntry key) g := by
  refine ⟨h.fresh, h.known, h.live, h.single, h.count, h.nested, ?_, h.call, h.idle, h.awaited, h.bounded⟩
  intro k e he
  rw [Controller.clearEntry, OrderedMap.get?_erase] at he
  split_ifs at he
  exact h.entry k e he

-- The timer of a scheduled resend: the lineage gets one more resend and is out of the map
-- until the send function returns.
theorem Kept.fire (h : Kept s g) (hidle : s.call = none) {entry : AutoResendEntry}
    (hentry : s.entries.get? key = some entry) (info : TrackedOutbound) (protocol : MeshProtocol) (args : SendArgs) :
    Kept { (s.clearEntry key).untrack key with call := some ⟨key, entry, info⟩ }
      (g.noteOne (.sendFn key protocol args)) := by
  obtain ⟨info', hinfo, hattempt, hroom⟩ := h.entry key entry hentry
  have hnone := h.idle hidle
  have hother : ∀ k, g.sending ≠ some (g.of' k) := by
    intro k
    simp [hnone]
  have hkey := mem_tracked hinfo
  have hget : ∀ k info'', (s.tracked.erase key).get? k = some info'' → k ≠ key ∧ s.tracked.get? k = some info'' := by
    intro k info'' hk
    rw [OrderedMap.get?_erase] at hk
    split_ifs at hk with hne
    exact ⟨hne, hk⟩
  have hkeys : ∀ k ∈ (s.tracked.erase key).keys, k ≠ key ∧ k ∈ s.tracked.keys := by
    intro k hk
    obtain ⟨info'', hk⟩ := (OrderedMap.mem_keys_iff _ _).mp hk
    exact ⟨(hget k info'' hk).1, mem_tracked (hget k info'' hk).2⟩
  have hlineage : ∀ k ∈ (s.tracked.erase key).keys, g.of' k ≠ g.of' key := by
    intro k hk heq
    exact (hkeys k hk).1 (h.single k (hkeys k hk).2 key hkey heq (hother k))
  have hcount := h.count key info' hinfo (hother key)
  refine ⟨fun k hk => h.fresh k (hkeys k hk).2, ?_, ?_, ?_, ?_, ?_, ?_, ?_, ?_, ?_, ?_⟩
  · intro y hy
    rcases List.mem_append.mp hy with hy | hy
    · exact h.known y hy
    · rw [List.mem_singleton.mp hy]
      exact h.fresh key hkey
  · exact fun k hk => (h.live k (hkeys k hk).2).append fun he => absurd he.symm (hlineage k hk)
  · exact fun k hk k' hk' heq _ => h.single k (hkeys k hk).2 k' (hkeys k' hk').2 heq (hother k)
  · intro k info'' hk _
    refine (count_append_of_ne ?_).trans (h.count k info'' (hget k info'' hk).2 (hother k))
    intro heq
    exact hlineage k (mem_tracked hk) (Happening.resent.inj heq).symm
  · intro k info'' hk hs
    exact absurd (Option.some.inj hs).symm (hlineage k (mem_tracked hk))
  · intro k e he
    change (s.entries.erase key).get? k = some e at he
    rw [OrderedMap.get?_erase] at he
    split_ifs at he with hne
    obtain ⟨info'', hk, hboth⟩ := h.entry k e he
    refine ⟨info'', ?_, hboth⟩
    change (s.tracked.erase key).get? k = some info''
    rw [OrderedMap.get?_erase, if_neg hne, hk]
  · rintro call ⟨⟩
    refine ⟨g.of' key, rfl, h.fresh key hkey, (h.live key hkey).append fun _ => rfl, ?_⟩
    change (g.history ++ [Happening.resent (g.of' key)]).count (Happening.resent (g.of' key)) = entry.attempt
    rw [List.count_append, hcount, hattempt, List.count_singleton_self]
  · rintro ⟨⟩
  · intro k hk
    obtain ⟨hk, hne⟩ := List.mem_filter.mp hk
    change k ∈ (s.tracked.erase key).keys
    rw [OrderedMap.mem_keys_iff, OrderedMap.get?_erase, if_neg (by simpa using hne), ← OrderedMap.mem_keys_iff]
    exact h.awaited k hk
  · refine h.bounded.append (fun _ => h.live key hkey) fun l hl => ?_
    obtain rfl := Happening.resent.inj hl
    omega

theorem Kept.timer (h : Kept s g) (hidle : s.call = none) (key : AutoResendKey) :
    Kept (fireResend s key).1 (g.note (fireResend s key).2) := by
  unfold fireResend
  cases hentry : s.entries.get? key with
  | none => exact h
  | some entry =>
      dsimp only
      split
      · exact h.clearEntry key
      · split
        · exact h.clearEntry key
        · rename_i record _
          split
          · exact h.clearEntry key
          · exact h.fire hidle hentry _ entry.protocol (resendArgsFor record)

theorem Kept.idle_sending (h : Kept s g) (hidle : s.call = none) (l : Nat) : g.sending ≠ some l := by
  simp [h.idle hidle]

theorem Kept.cancel (h : Kept s g) (hidle : s.call = none) (hpresent : key ∉ g.awaited) :
    Kept (cancelAutoResend s key)
      (if key ∈ s.tracked.keys ∨ key ∈ s.entries.keys then g.record (.cancelled (g.of' key)) else g) := by
  have harrived : g.arrived key = g := by
    have hsame : g.awaited.filter (· ≠ key) = g.awaited := by
      refine List.filter_eq_self.mpr fun k hk => ?_
      have hne : k ≠ key := fun heq => hpresent (heq ▸ hk)
      simpa using hne
    rw [Lineages.arrived, hsame]
  by_cases htracked : key ∈ s.tracked.keys
  · obtain ⟨info, hinfo⟩ := (OrderedMap.mem_keys_iff _ _).mp htracked
    rw [if_pos (.inl htracked)]
    have hleft : Kept (cancelAutoResend s key) ((g.arrived key).record (.cancelled (g.of' key))) :=
      h.leave hinfo (h.idle_sending hidle _) rfl (by simp) rfl (fun k => OrderedMap.get?_erase _ _ _) rfl
    rwa [harrived] at hleft
  · have hentries : key ∉ s.entries.keys := by
      intro hkey
      obtain ⟨e, he⟩ := (OrderedMap.mem_keys_iff _ _).mp hkey
      obtain ⟨info, hinfo, _⟩ := h.entry key e he
      exact htracked (mem_tracked hinfo)
    rw [if_neg (not_or.mpr ⟨htracked, hentries⟩)]
    have hsame : cancelAutoResend s key = s := by
      have herase : ∀ {α : Type} (m : OrderedMap AutoResendKey α), key ∉ m.keys → m.erase key = m :=
        fun m hm => OrderedMap.filter_eq_self _ _ fun k v hk => by
          have hne : k ≠ key := fun heq => hm (heq ▸ (OrderedMap.mem_keys_iff _ _).mpr ⟨v, hk⟩)
          simpa using hne
      simp only [cancelAutoResend, Controller.clearEntry, Controller.untrack, herase _ htracked, herase _ hentries]
    rw [hsame]
    exact h

theorem get?_trackOutbound {tracked : OrderedMap AutoResendKey TrackedOutbound} (h : NoDrop tracked key)
    (value : TrackedOutbound) (k : AutoResendKey) :
    (trackOutbound tracked key value).get? k = if k = key then some value else tracked.get? k := by
  have hset : trackOutbound tracked key value = tracked.set key value := by
    unfold trackOutbound
    refine if_neg fun hfull => ?_
    rcases h with hroom | hknown
    · omega
    · exact hfull.2 hknown
  rw [hset, OrderedMap.get?_set]

theorem mem_trackOutbound {tracked : OrderedMap AutoResendKey TrackedOutbound} (h : NoDrop tracked key)
    (value : TrackedOutbound) {k : AutoResendKey} :
    k ∈ (trackOutbound tracked key value).keys ↔ k = key ∨ k ∈ tracked.keys := by
  rw [OrderedMap.mem_keys_iff, OrderedMap.mem_keys_iff, get?_trackOutbound h]
  split_ifs with hk <;> simp [hk]

theorem startsTracking_some {env : Surroundings} {identityId : String} {record : MessageRecord}
    (h : startsTracking env s identityId record = some key) :
    key ∉ s.tracked.keys ∧ key.messageId = record.id ∧ env.protocolOf identityId = some key.protocol := by
  unfold startsTracking at h
  split_ifs at h
  obtain ⟨protocol, hprotocol, h⟩ := Option.bind_eq_some_iff.mp h
  split_ifs at h with heligible
  obtain rfl := Option.some.inj h
  exact ⟨heligible.2, rfl, hprotocol⟩

theorem Kept.arrived (h : Kept s g) (key : AutoResendKey) : Kept s (g.arrived key) :=
  ⟨h.fresh, h.known, h.live, h.single, h.count, h.nested, h.entry, h.call, h.idle,
    fun k hk => h.awaited k (List.mem_of_mem_filter hk), h.bounded⟩

-- Forgetting a tracked bubble with its scheduled resend ends nothing.
theorem Kept.forget (h : Kept s g) (key : AutoResendKey) :
    Kept ((s.untrack key).clearEntry key) (g.arrived key) := by
  have hget : ∀ k info, (s.tracked.erase key).get? k = some info → k ≠ key ∧ s.tracked.get? k = some info := by
    intro k info hk
    rw [OrderedMap.get?_erase] at hk
    split_ifs at hk with hne
    exact ⟨hne, hk⟩
  have hkeys : ∀ k ∈ (s.tracked.erase key).keys, k ∈ s.tracked.keys := by
    intro k hk
    obtain ⟨info, hk⟩ := (OrderedMap.mem_keys_iff _ _).mp hk
    exact mem_tracked (hget k info hk).2
  refine ⟨fun k hk => h.fresh k (hkeys k hk), h.known, fun k hk => h.live k (hkeys k hk),
    fun k hk k' hk' => h.single k (hkeys k hk) k' (hkeys k' hk'),
    fun k info hk => h.count k info (hget k info hk).2, fun k info hk => h.nested k info (hget k info hk).2,
    ?_, h.call, h.idle, ?_, h.bounded⟩
  · intro k e he
    change (s.entries.erase key).get? k = some e at he
    rw [OrderedMap.get?_erase] at he
    split_ifs at he with hne
    obtain ⟨info, hk, hboth⟩ := h.entry k e he
    refine ⟨info, ?_, hboth⟩
    change (s.tracked.erase key).get? k = some info
    rw [OrderedMap.get?_erase, if_neg hne, hk]
  · intro k hk
    obtain ⟨hk, hne⟩ := List.mem_filter.mp hk
    change k ∈ (s.tracked.erase key).keys
    rw [OrderedMap.mem_keys_iff, OrderedMap.get?_erase, if_neg (by simpa using hne), ← OrderedMap.mem_keys_iff]
    exact h.awaited k hk

-- A bubble comes under a key that has no resend scheduled, as the only one of its lineage or
-- while the lineage is being resent.
theorem Kept.track (h : Kept s g) {value : TrackedOutbound} {l next : Nat} (hdrop : NoDrop s.tracked key)
    (hentries : key ∉ s.entries.keys) (hnext : g.next ≤ next) (hl : l < next) (hlive : Live g.history l)
    (hnested : g.sending = some l → value.resendsUsed = 0)
    (hcount : g.sending ≠ some l → g.history.count (.resent l) = value.resendsUsed)
    (honly : g.sending ≠ some l → ∀ k ∈ s.tracked.keys, k ≠ key → g.of' k ≠ l) :
    Kept { s with tracked := trackOutbound s.tracked key value } { g.assign key l with next := next } := by
  have hof : ∀ k, (g.assign key l).of' k = if k = key then l else g.of' k := fun k =>
    Function.update_apply g.of' key l k
  have hget : ∀ k info, (trackOutbound s.tracked key value).get? k = some info →
      k = key ∧ info = value ∨ k ≠ key ∧ s.tracked.get? k = some info := by
    intro k info hk
    rw [get?_trackOutbound hdrop] at hk
    split_ifs at hk with hne
    · exact .inl ⟨hne, (Option.some.inj hk).symm⟩
    · exact .inr ⟨hne, hk⟩
  refine ⟨?_, fun x hx => (h.known x hx).trans_le hnext, ?_, ?_, ?_, ?_, ?_, ?_, h.idle, ?_, h.bounded⟩
  · intro k hk
    change (g.assign key l).of' k < next
    rw [hof]
    split_ifs with hne
    · exact hl
    · exact (h.fresh k (((mem_trackOutbound hdrop value).mp hk).resolve_left hne)).trans_le hnext
  · intro k hk
    change Live g.history ((g.assign key l).of' k)
    rw [hof]
    split_ifs with hne
    · exact hlive
    · exact h.live k (((mem_trackOutbound hdrop value).mp hk).resolve_left hne)
  · intro k hk k' hk' heq hs
    change (g.assign key l).of' k = (g.assign key l).of' k' at heq
    change g.sending ≠ some ((g.assign key l).of' k) at hs
    rw [hof] at hs
    rw [hof, hof] at heq
    have htracked := (mem_trackOutbound hdrop value).mp hk
    have htracked' := (mem_trackOutbound hdrop value).mp hk'
    split_ifs at heq hs with hne hne' hne'
    · exact hne.trans hne'.symm
    · exact absurd heq.symm (honly hs k' (htracked'.resolve_left hne') hne')
    · exact absurd heq (honly (heq ▸ hs) k (htracked.resolve_left hne) hne)
    · exact h.single k (htracked.resolve_left hne) k' (htracked'.resolve_left hne') heq hs
  · intro k info hk hs
    change g.sending ≠ some ((g.assign key l).of' k) at hs
    change g.history.count (.resent ((g.assign key l).of' k)) = info.resendsUsed
    rw [hof] at hs ⊢
    rcases hget k info hk with ⟨hkey, rfl⟩ | ⟨hne, hk⟩
    · rw [if_pos hkey] at hs ⊢
      exact hcount hs
    · rw [if_neg hne] at hs ⊢
      exact h.count k info hk hs
  · intro k info hk hs
    change g.sending = some ((g.assign key l).of' k) at hs
    rw [hof] at hs
    rcases hget k info hk with ⟨hkey, rfl⟩ | ⟨hne, hk⟩
    · rw [if_pos hkey] at hs
      exact hnested hs
    · rw [if_neg hne] at hs
      exact h.nested k info hk hs
  · intro k e he
    have hne : k ≠ key := fun heq => hentries (heq ▸ (OrderedMap.mem_keys_iff _ _).mpr ⟨e, he⟩)
    obtain ⟨info, hk, hboth⟩ := h.entry k e he
    refine ⟨info, ?_, hboth⟩
    change (trackOutbound s.tracked key value).get? k = some info
    rw [get?_trackOutbound hdrop, if_neg hne, hk]
  · intro call hc
    obtain ⟨l', hs, hnext', hrest⟩ := h.call call hc
    exact ⟨l', hs, hnext'.trans_le hnext, hrest⟩
  · exact fun k hk => (mem_trackOutbound hdrop value).mpr (.inr (h.awaited k hk))

theorem Kept.entries_tracked (h : Kept s g) (hkey : key ∉ s.tracked.keys) : key ∉ s.entries.keys := by
  intro hentry
  obtain ⟨e, he⟩ := (OrderedMap.mem_keys_iff _ _).mp hentry
  obtain ⟨info, hinfo, _⟩ := h.entry key e he
  exact hkey (mem_tracked hinfo)

theorem count_fresh {history : List Happening} {l : Nat} (h : ∀ x ∈ history, x.lineage < l) :
    history.count (.resent l) = 0 :=
  List.count_eq_zero.mpr fun hmem => absurd (h _ hmem) (lt_irrefl l)

theorem Kept.sending_live (h : Kept s g) {l : Nat} (hs : g.sending = some l) : l < g.next ∧ Live g.history l := by
  cases hcall : s.call with
  | none => exact absurd (hs.symm.trans (h.idle hcall)) (by simp)
  | some call =>
      obtain ⟨l', hl', hnext, hlive, _⟩ := h.call call hcall
      obtain rfl : l = l' := Option.some.inj (hs.symm.trans hl')
      exact ⟨hnext, hlive⟩

theorem Kept.started (h : Kept s g) (hkey : key ∉ s.tracked.keys) (hdrop : NoDrop s.tracked key)
    {value : TrackedOutbound} (hvalue : value.resendsUsed = 0) :
    Kept { s with tracked := trackOutbound s.tracked key value } (g.started key) := by
  have hentries := h.entries_tracked hkey
  unfold Lineages.started
  cases hs : g.sending with
  | some l =>
      obtain ⟨hnext, hlive⟩ := h.sending_live hs
      exact h.track hdrop hentries le_rfl hnext hlive (fun _ => hvalue) (fun hne => absurd hs hne)
        fun hne => absurd hs hne
  | none =>
      dsimp only
      rw [if_neg fun hawaited => hkey (h.awaited key hawaited)]
      refine h.track hdrop hentries (Nat.le_succ _) (Nat.lt_succ_self _) ?_ (fun _ => hvalue) ?_ ?_
      · exact fun x hx heq => absurd heq (h.known x hx).ne
      · exact fun _ => (count_fresh h.known).trans hvalue.symm
      · exact fun _ k hk _ => (h.fresh k hk).ne

theorem Kept.added {env : Surroundings} {identityId : String} {record : MessageRecord} (h : Kept s g)
    (hdrop : ∀ key ∈ startsTracking env s identityId record, NoDrop s.tracked key) :
    Kept (s.react env (.added identityId record)).1 (g.step env s (.added identityId record)) := by
  unfold Lineages.step Controller.react
  dsimp only
  cases hrunning : s.running with
  | false =>
      simp only [Bool.false_eq_true, if_false]
      split
      · exact h.arrived _
      · exact h
  | true =>
      simp only [if_true]
      unfold onAdded
      cases hstarts : startsTracking env s identityId record with
      | none =>
          dsimp only
          split
          · exact h.arrived _
          · exact h
      | some key =>
          obtain ⟨hkey, _, _⟩ := startsTracking_some hstarts
          dsimp only
          split
          · exact (h.started hkey (hdrop key hstarts) rfl).arrived _
          · exact h.started hkey (hdrop key hstarts) rfl

theorem mem_ownBubbles {r : Resending} {k : AutoResendKey} {info : TrackedOutbound}
    (hk : r.controller.tracked.get? k = some info) (hs : r.lineages.sending = some (r.lineages.of' k)) :
    (k, info) ∈ r.ownBubbles :=
  List.mem_filter.mpr ⟨(OrderedMap.mem_entries_iff _ _ _).mpr hk, by simp [hs]⟩

-- A rename moves a tracked bubble to a key without a scheduled resend.
theorem Kept.moved (h : Kept s g) {protocol : MeshProtocol} {fromId toId : String}
    (hinfo : s.tracked.get? ⟨protocol, fromId⟩ = some info)
    (hdrop : NoDrop (s.tracked.erase ⟨protocol, fromId⟩) ⟨protocol, toId⟩)
    (hfree : fromId = toId ∨ ⟨protocol, toId⟩ ∉ s.entries.keys) :
    Kept { (s.untrack ⟨protocol, fromId⟩).clearEntry ⟨protocol, fromId⟩ with
        tracked := trackOutbound (s.tracked.erase ⟨protocol, fromId⟩) ⟨protocol, toId⟩ info }
      (((g.assign ⟨protocol, toId⟩ (g.of' ⟨protocol, fromId⟩)).arrived ⟨protocol, fromId⟩).arrived
        ⟨protocol, toId⟩) := by
  set old : AutoResendKey := ⟨protocol, fromId⟩ with hold
  set new : AutoResendKey := ⟨protocol, toId⟩ with hnew
  have hkey := mem_tracked hinfo
  have hforgotten := h.forget old
  have hentries : new ∉ (s.entries.erase old).keys := by
    rw [OrderedMap.mem_keys_iff, OrderedMap.get?_erase]
    split_ifs with heq
    · simp
    · rw [← OrderedMap.mem_keys_iff]
      refine hfree.resolve_left fun hsame => heq ?_
      rw [hnew, hold, hsame]
  have htracked := @Kept.track _ _ new hforgotten info (g.of' old) g.next hdrop hentries
    le_rfl (h.fresh old hkey) (h.live old hkey) (fun hs => h.nested old info hinfo hs)
    (fun hs => h.count old info hinfo hs) (fun hs k hk _ heq => ?_)
  · exact htracked.arrived new
  · have hne : k ≠ old ∧ k ∈ s.tracked.keys := by
      obtain ⟨info', hk⟩ := (OrderedMap.mem_keys_iff _ _).mp hk
      change (s.tracked.erase old).get? k = some info' at hk
      rw [OrderedMap.get?_erase] at hk
      split_ifs at hk with hne
      exact ⟨hne, mem_tracked hk⟩
    exact hne.1 (h.single old hkey k hne.2 heq.symm hs).symm

theorem Kept.renamed {env : Surroundings} {r : Resending} (h : Kept r.controller r.lineages)
    {identityId fromId toId : String} {now : Int} (htogether : r.Together env (.renamed identityId fromId toId now)) :
    Kept (r.controller.react env (.renamed identityId fromId toId now)).1
      (r.lineages.step env r.controller (.renamed identityId fromId toId now)) := by
  set s := r.controller with hs
  set g := r.lineages with hg
  simp only [Controller.react, Lineages.step]
  split_ifs with hrunning
  · unfold onRenamed
    cases hprotocol : env.protocolOf identityId with
    | none => exact h
    | some protocol =>
        dsimp only
        cases hinfo : s.tracked.get? ⟨protocol, fromId⟩ with
        | none =>
            rw [if_neg ((OrderedMap.get?_eq_none_iff _ _).mp hinfo)]
            exact h
        | some info =>
            have hkey := mem_tracked hinfo
            obtain ⟨hdrop, hfree, hown⟩ := htogether protocol hprotocol hkey
            have hmoved := h.moved hinfo hdrop hfree
            rw [if_pos hkey]
            dsimp only
            split_ifs with hentry
            · refine evaluate_kept hmoved fun k info' hk hsending => ?_
              have hmem : ⟨protocol, fromId⟩ ∈ s.entries.keys := by
                rw [OrderedMap.mem_keys_iff]
                exact Option.isSome_iff_exists.mp hentry
              change (trackOutbound (s.tracked.erase ⟨protocol, fromId⟩) ⟨protocol, toId⟩ info).get? k =
                some info' at hk
              change g.sending = some (Function.update g.of' ⟨protocol, toId⟩ (g.of' ⟨protocol, fromId⟩) k)
                at hsending
              rw [get?_trackOutbound hdrop] at hk
              rw [Function.update_apply] at hsending
              split_ifs at hk hsending with hnew
              · obtain rfl := Option.some.inj hk
                have hstatus := hown hmem _ (mem_ownBubbles hinfo hsending)
                rw [if_pos rfl] at hstatus
                rw [hnew]
                exact hstatus
              · rw [OrderedMap.get?_erase] at hk
                split_ifs at hk with hold
                have hstatus := hown hmem _ (mem_ownBubbles hk hsending)
                rwa [if_neg hold] at hstatus
            · exact hmoved
  · exact h

theorem Kept.deleted (h : Kept s g) (hidle : s.call = none) (identityId id : String) (now : Int) :
    Kept (deleteMessage s identityId id now).1 (g.note (deleteMessage s identityId id now).2) := by
  unfold deleteMessage
  split_ifs
  · exact h
  · exact h.changed _ now fun _ k _ _ hsending => absurd hsending (h.idle_sending hidle _)

theorem Kept.superseded (h : Kept s g) (env : Surroundings) (hidle : s.call = none) (protocol : MeshProtocol)
    (identityId id : String) (now : Int) :
    Kept (removeSupersededBubble env s protocol identityId id now).1
      (g.note (removeSupersededBubble env s protocol identityId id now).2) := by
  unfold removeSupersededBubble
  split_ifs
  · exact h
  · dsimp only
    rw [note_append]
    have hdeleted := h.deleted hidle identityId id now
    cases env.packetNumber id with
    | none => exact hdeleted
    | some n => exact hdeleted

-- The send function has returned an id: the bubble takes over the lineage and its count.
theorem Kept.returned (h : Kept s g) {call : ResendCall} (hcall : s.call = some call) {l : Nat}
    (hs : g.sending = some l) {value : TrackedOutbound} (hvalue : value.resendsUsed = call.entry.attempt)
    (hdrop : NoDrop s.tracked key) (hentries : key ∉ s.entries.keys)
    (honly : ∀ k ∈ s.tracked.keys, g.sending = some (g.of' k) → k = key) :
    Kept { s with call := none, tracked := trackOutbound s.tracked key value }
      { g.assign key l with sending := none } := by
  have hgone : ∀ k ∈ s.tracked.keys, k ≠ key → g.of' k ≠ l := fun k hk hne heq =>
    hne (honly k hk (hs.trans (congrArg some heq.symm)))
  have hother : ∀ k ∈ s.tracked.keys, k ≠ key → g.sending ≠ some (g.of' k) := fun k hk hne heq =>
    hne (honly k hk heq)
  obtain ⟨l', hl', hnext, hlive, hcount⟩ := h.call call hcall
  obtain rfl : l = l' := Option.some.inj (hs.symm.trans hl')
  have hof : ∀ k, (g.assign key l).of' k = if k = key then l else g.of' k := fun k =>
    Function.update_apply g.of' key l k
  have hold : ∀ k ∈ (trackOutbound s.tracked key value).keys, k ≠ key → k ∈ s.tracked.keys := fun k hk hne =>
    ((mem_trackOutbound hdrop value).mp hk).resolve_left hne
  refine ⟨?_, h.known, ?_, ?_, ?_, ?_, ?_, ?_, fun _ => rfl, ?_, h.bounded⟩
  · intro k hk
    change (g.assign key l).of' k < g.next
    rw [hof]
    split_ifs with hne
    · exact hnext
    · exact h.fresh k (hold k hk hne)
  · intro k hk
    change Live g.history ((g.assign key l).of' k)
    rw [hof]
    split_ifs with hne
    · exact hlive
    · exact h.live k (hold k hk hne)
  · intro k hk k' hk' heq _
    change (g.assign key l).of' k = (g.assign key l).of' k' at heq
    rw [hof, hof] at heq
    split_ifs at heq with hne hne' hne'
    · exact hne.trans hne'.symm
    · exact absurd heq.symm (hgone k' (hold k' hk' hne') hne')
    · exact absurd heq (hgone k (hold k hk hne) hne)
    · exact h.single k (hold k hk hne) k' (hold k' hk' hne') heq (hother k (hold k hk hne) hne)
  · intro k info hk _
    change g.history.count (.resent ((g.assign key l).of' k)) = info.resendsUsed
    change (trackOutbound s.tracked key value).get? k = some info at hk
    rw [get?_trackOutbound hdrop] at hk
    rw [hof]
    split_ifs at hk ⊢ with hne
    · obtain rfl := Option.some.inj hk
      exact hcount.trans hvalue.symm
    · exact h.count k info hk (hother k (mem_tracked hk) hne)
  · intro k info hk hsending
    cases hsending
  · intro k e he
    have hne : k ≠ key := fun heq => hentries (heq ▸ (OrderedMap.mem_keys_iff _ _).mpr ⟨e, he⟩)
    obtain ⟨info, hk, hboth⟩ := h.entry k e he
    refine ⟨info, ?_, hboth⟩
    change (trackOutbound s.tracked key value).get? k = some info
    rw [get?_trackOutbound hdrop, if_neg hne, hk]
  · rintro call ⟨⟩
  · exact fun k hk => (mem_trackOutbound hdrop value).mpr (.inr (h.awaited k hk))

theorem Kept.gaveUp (h : Kept s g) {l : Nat} (hs : g.sending = some l)
    (hnone : ∀ k ∈ s.tracked.keys, g.sending ≠ some (g.of' k)) :
    Kept { s with call := none } ({ g with sending := none }.record (.ended l .gaveUp)) := by
  obtain ⟨hnext, hlive⟩ := h.sending_live hs
  have hother : ∀ k ∈ s.tracked.keys, g.of' k ≠ l := fun k hk heq => hnone k hk (hs.trans (congrArg some heq.symm))
  refine ⟨h.fresh, ?_, ?_, fun k hk k' hk' heq _ => h.single k hk k' hk' heq (hnone k hk), ?_, ?_, h.entry, ?_,
    fun _ => rfl, h.awaited, h.bounded.append (fun _ => hlive) (fun _ => by simp)⟩
  · intro x hx
    rcases List.mem_append.mp hx with hx | hx
    · exact h.known x hx
    · rw [List.mem_singleton.mp hx]
      exact hnext
  · exact fun k hk => (h.live k hk).append fun heq => absurd heq.symm (hother k hk)
  · intro k info hk _
    exact (count_append_of_ne (by simp)).trans (h.count k info hk (hnone k (mem_tracked hk)))
  · intro k info hk hsending
    cases hsending
  · rintro call ⟨⟩

theorem Kept.await (h : Kept s g) (hkey : key ∈ s.tracked.keys) :
    Kept s { g with awaited := key :: g.awaited } := by
  refine ⟨h.fresh, h.known, h.live, h.single, h.count, h.nested, h.entry, h.call, h.idle, ?_, h.bounded⟩
  intro k hk
  rcases List.mem_cons.mp hk with rfl | hk
  · exact hkey
  · exact h.awaited k hk

theorem Kept.sendReturned {env : Surroundings} {r : Resending} (h : Kept r.controller r.lineages)
    {newId : Option String} {now : Int} (htogether : r.Together env (.sendReturned newId now)) :
    Kept (r.controller.react env (.sendReturned newId now)).1
      (r.lineages.step env r.controller (.sendReturned newId now)) := by
  set s := r.controller with hs
  set g := r.lineages with hg
  simp only [Controller.react, Lineages.step]
  cases hcall : s.call with
  | none => exact h
  | some call =>
      obtain ⟨l, hsending, hnext, hlive, hcount⟩ := h.call call hcall
      have hown := htogether call hcall
      rw [hsending]
      dsimp only
      unfold finishResend
      cases hid : newId.filter fun id => id != "" with
      | none =>
          rw [hid] at hown
          refine h.gaveUp hsending fun k hk heq => ?_
          obtain ⟨info, hinfo⟩ := (OrderedMap.mem_keys_iff _ _).mp hk
          have hmem := mem_ownBubbles hinfo heq
          rw [hown] at hmem
          cases hmem
      | some id =>
          rw [hid] at hown
          obtain ⟨hdrop, hentries, honly⟩ := hown
          set key : AutoResendKey := ⟨call.entry.protocol, id⟩ with hkey
          have htracking := @Kept.returned _ _ key h call hcall l hsending
            ⟨call.entry.identityId, call.entry.protocol, call.entry.attempt, call.info.originId⟩ rfl hdrop hentries
            (fun k hk heq => by
              obtain ⟨info, hinfo⟩ := (OrderedMap.mem_keys_iff _ _).mp hk
              exact honly _ (mem_ownBubbles hinfo heq))
          have htracked : key ∈ (trackOutbound s.tracked key
              ⟨call.entry.identityId, call.entry.protocol, call.entry.attempt, call.info.originId⟩).keys :=
            (mem_trackOutbound hdrop _).mpr (.inl rfl)
          dsimp only
          split_ifs with hsame habsent habsent
          · exact (htracking.await htracked).superseded env rfl _ _ _ now
          · exact htracking.superseded env rfl _ _ _ now
          · exact htracking.await htracked
          · exact htracking

theorem Kept.step {env : Surroundings} {r : Resending} (h : Kept r.controller r.lineages) (event : Event)
    (htogether : r.Together env event) :
    Kept (r.step env event).controller (r.step env event).lineages := by
  cases event with
  | changed messages now =>
      exact h.changed messages now fun hrunning k info hk hsending =>
        htogether hrunning _ (mem_ownBubbles hk hsending)
  | added identityId record => exact h.added htogether
  | renamed identityId fromId toId now => exact h.renamed htogether
  | timer key =>
      simp only [Resending.step, Controller.react, Lineages.step]
      split_ifs with hbusy
      · exact h
      · exact h.timer (by simpa using hbusy) key
  | sendReturned newId now => exact h.sendReturned htogether
  | cancel key =>
      simp only [Resending.step, Controller.react, Lineages.step]
      cases hcall : r.controller.call with
      | none => simpa using h.cancel hcall htogether
      | some call => simpa using h
  | started =>
      simp only [Resending.step, Controller.react, Lineages.step]
      split_ifs
      · exact h
      · exact h.of_running true
  | stopped =>
      simp only [Resending.step, Controller.react, Lineages.step]
      split_ifs
      · exact h
      · exact h.of_running false

theorem start_kept : Kept Resending.start.controller Resending.start.lineages := by
  have hnone : ∀ k, k ∉ Resending.start.controller.tracked.keys := fun k hk => by cases hk
  refine ⟨fun k hk => absurd hk (hnone k), ?_, fun k hk => absurd hk (hnone k), fun k hk => absurd hk (hnone k),
    fun k info hk => absurd (mem_tracked hk) (hnone k), fun k info hk => absurd (mem_tracked hk) (hnone k), ?_, ?_,
    fun _ => rfl, ?_, ⟨fun l => Nat.zero_le _, fun l => Nat.zero_le _, ?_⟩⟩
  · intro x hx
    cases hx
  · intro k e he
    cases he
  · intro call hcall
    cases hcall
  · intro k hk
    cases hk
  · intro l before after hsplit hstop hresent
    obtain ⟨rfl, rfl⟩ := List.append_eq_nil_iff.mp hsplit.symm
    cases hresent

-- As long as the counters stay together every lineage has at most three resends and one
-- outcome, and none after it was acknowledged or called off.
theorem auto_resends_bounded (env : Surroundings) (events : List Event)
    (h : Each (Resending.step env) (Resending.Together env) .start events) :
    Bounded (run (Resending.step env) .start events).lineages.history :=
  (invariant_of_each (fun _ event htogether hkept => Kept.step hkept event htogether) h start_kept).bounded

instance Resending.Together.decidable (env : Surroundings) (r : Resending) :
    (event : Event) → Decidable (r.Together env event)
  | .changed messages _ => inferInstanceAs (Decidable (r.controller.running = true → ∀ e ∈ r.ownBubbles,
      statusIs messages e.2.identityId e.1.messageId .acked = false))
  | .added identityId record => inferInstanceAs (Decidable
      (∀ key ∈ startsTracking env r.controller identityId record, NoDrop r.controller.tracked key))
  | .renamed identityId fromId toId _ => inferInstanceAs (Decidable (∀ protocol ∈ env.protocolOf identityId,
      ⟨protocol, fromId⟩ ∈ r.controller.tracked.keys →
        NoDrop (r.controller.tracked.erase ⟨protocol, fromId⟩) ⟨protocol, toId⟩ ∧
        (fromId = toId ∨ ⟨protocol, toId⟩ ∉ r.controller.entries.keys) ∧
        (⟨protocol, fromId⟩ ∈ r.controller.entries.keys → ∀ e ∈ r.ownBubbles,
          statusIs r.controller.messages e.2.identityId
            (if e.1 = ⟨protocol, fromId⟩ then toId else e.1.messageId) .acked = false)))
  | .timer _ => inferInstanceAs (Decidable True)
  | .sendReturned newId _ => inferInstanceAs (Decidable
      (∀ call ∈ r.controller.call, r.Returns call (newId.filter fun id => id != "")))
  | .cancel key => inferInstanceAs (Decidable (key ∉ r.lineages.awaited))
  | .started => inferInstanceAs (Decidable True)
  | .stopped => inferInstanceAs (Decidable True)

def plainSurroundings : Surroundings := ⟨fun _ => false, fun _ => none, fun _ => some .meshtastic⟩

def bubble (id : String) (status : MessageStatus) : MessageRecord :=
  { id, to' := 7, payload := "hello", status := some status }

def bubbles (records : List MessageRecord) (_ id : String) : Option MessageRecord :=
  records.find? fun record => record.id == id

-- A send of the user whose bubble fails later.
def firstFails : List Event :=
  [.changed (bubbles [bubble "a" .sending]) 0, .added "me" (bubble "a" .sending),
    .changed (bubbles [bubble "a" .failed]) 10]

-- The send function adds the new bubble, the bubble gets its status, and the id is returned.
def resendEndsAtOnce (old new : String) (status : MessageStatus) : List Event :=
  [.timer ⟨.meshtastic, old⟩, .changed (bubbles [bubble old .failed, bubble new .sending]) 20,
    .added "me" (bubble new .sending), .changed (bubbles [bubble old .failed, bubble new status]) 30,
    .sendReturned (some new) 30]

theorem auto_resends_bounded_late_failure :
    Bounded (run (Resending.step plainSurroundings) .start (firstFails ++
      resendEndsAtOnce "a" "b" .sending ++
      [.changed (bubbles [bubble "b" .failed]) 40])).lineages.history :=
  auto_resends_bounded plainSurroundings _ (by decide)

-- A bubble that fails before the send function returns is scheduled with a count of its own, so
-- the resends never run out; one acknowledged before then is tracked again and has its outcome twice.
theorem nested_status_resends_again :
    (∃ events, Each (Resending.step plainSurroundings)
        (fun r _ => r.controller.tracked.size < MAX_TRACKED_OUTBOUND) .start events ∧
      (run (Resending.step plainSurroundings) .start events).lineages.history.count (.resent 0) >
        REGULAR_MESSAGE_MAX_AUTO_RESENDS) ∧
    ∃ events, Each (Resending.step plainSurroundings)
        (fun r _ => r.controller.tracked.size < MAX_TRACKED_OUTBOUND) .start events ∧
      ¬Bounded (run (Resending.step plainSurroundings) .start events).lineages.history := by
  refine ⟨⟨firstFails ++ resendEndsAtOnce "a" "b" .failed ++ resendEndsAtOnce "b" "c" .failed ++
      resendEndsAtOnce "c" "d" .failed ++ resendEndsAtOnce "d" "e" .failed, ?_, ?_⟩,
    firstFails ++ resendEndsAtOnce "a" "b" .acked, ?_, fun h => ?_⟩
  · decide
  · decide
  · decide
  · exact absurd (h.outcomes 0) (by decide)

end MeshClient.AutoResend
