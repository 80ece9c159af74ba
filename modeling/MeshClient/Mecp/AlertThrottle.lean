import MeshClient.Incident.Store

namespace MeshClient.Mecp

open Incident (MS_PER_MINUTE)

def MECP_ALERT_THROTTLE_MAX : Nat := 3
def MECP_ALERT_THROTTLE_WINDOW_MS : Int := 10 * MS_PER_MINUTE
def MECP_ALERT_FLOOD_MAX_SENDERS : Nat := 5
def MECP_ALERT_FLOOD_WINDOW_MS : Int := MS_PER_MINUTE
def MAX_TRACKED_SENDERS : Nat := 1000

inductive SuppressionNotice where
  | sender
  | flood
deriving DecidableEq

structure MecpThrottleDecision where
  alert : Bool
  notify : Option SuppressionNotice
deriving DecidableEq

structure SenderWindow where
  alerts : List Int
  notifiedAt : Option Int
deriving DecidableEq

structure RecentAlert where
  key : String
  time : Int
deriving DecidableEq

structure AlertThrottle where
  senders : OrderedMap String SenderWindow
  recentAlerts : List RecentAlert
  floodNotifiedAt : Option Int
deriving DecidableEq

def AlertThrottle.fresh : AlertThrottle := ⟨∅, [], none⟩

def SenderWindow.expired (w : SenderWindow) (now : Int) : Bool :=
  w.alerts.all fun time => decide (now - time > MECP_ALERT_THROTTLE_WINDOW_MS)

def unexpired (senders : OrderedMap String SenderWindow) (now : Int) : OrderedMap String SenderWindow :=
  senders.filter fun _ w => !w.expired now

def overflow (senders : OrderedMap String SenderWindow) (now : Int) : Nat :=
  (unexpired senders now).size - MAX_TRACKED_SENDERS

def pruneSenders (senders : OrderedMap String SenderWindow) (now : Int) :
    OrderedMap String SenderWindow :=
  if senders.size ≤ MAX_TRACKED_SENDERS then senders
  else (unexpired senders now).drop (overflow senders now)

-- The senders that leave because of the cap, although an alert of theirs is still counted.
def cappedSenders (senders : OrderedMap String SenderWindow) (now : Int) : List String :=
  if senders.size ≤ MAX_TRACKED_SENDERS then []
  else (unexpired senders now).keys.take (overflow senders now)

def alertsInWindow (w : Option SenderWindow) (now : Int) : List Int :=
  ((w.map SenderWindow.alerts).getD []).filter fun time =>
    decide (now - time ≤ MECP_ALERT_THROTTLE_WINDOW_MS)

def senderAlertsInWindow (s : AlertThrottle) (key : String) (now : Int) : List Int :=
  alertsInWindow (s.senders.get? key) now

def floodSenders (s : AlertThrottle) (key : String) (now : Int) : Finset String :=
  ((s.recentAlerts.filter fun a =>
    decide (now - a.time ≤ MECP_ALERT_FLOOD_WINDOW_MS) && decide (a.key ≠ key)).map RecentAlert.key).toFinset

def floodActive (s : AlertThrottle) (key : String) (now : Int) : Bool :=
  decide ((floodSenders s key now).card ≥ MECP_ALERT_FLOOD_MAX_SENDERS)

def isMecpAlertThrottled (s : AlertThrottle) (key : String) (now : Int) : Bool :=
  decide ((senderAlertsInWindow s key now).length ≥ MECP_ALERT_THROTTLE_MAX) || floodActive s key now

def senderThrottled (s : AlertThrottle) (key : String) (now : Int) : Bool :=
  decide ((senderAlertsInWindow s key now).length ≥ MECP_ALERT_THROTTLE_MAX)

def flooded (s : AlertThrottle) (key : String) (now : Int) : Bool :=
  !senderThrottled s key now && floodActive s key now

def prevNotifiedAt (s : AlertThrottle) (key : String) : Option Int :=
  (s.senders.get? key).bind SenderWindow.notifiedAt

def notifiesSender (s : AlertThrottle) (key : String) (now : Int) : Bool :=
  senderThrottled s key now &&
    (prevNotifiedAt s key).all fun time => decide (now - time > MECP_ALERT_THROTTLE_WINDOW_MS)

def notifiesFlood (s : AlertThrottle) (key : String) (now : Int) : Bool :=
  flooded s key now &&
    s.floodNotifiedAt.all fun time => decide (now - time > MECP_ALERT_FLOOD_WINDOW_MS)

-- The senders once the call is counted, before they are pruned. A newcomer that comes in a
-- flood is not taken in.
def countSender (s : AlertThrottle) (key : String) (now : Int) : OrderedMap String SenderWindow :=
  let isNewSender := (s.senders.get? key).isNone
  if flooded s key now && isNewSender then s.senders
  else s.senders.set key ⟨senderAlertsInWindow s key now ++ [now],
    if notifiesSender s key now then some now else prevNotifiedAt s key⟩

def recordMecpAlert (s : AlertThrottle) (key : String) (now : Int) :
    MecpThrottleDecision × AlertThrottle :=
  let recentAlerts := s.recentAlerts.filter fun a => decide (now - a.time ≤ MECP_ALERT_FLOOD_WINDOW_MS)
  let notify :=
    if notifiesSender s key now then some .sender
    else if notifiesFlood s key now then some .flood
    else none
  (⟨!senderThrottled s key now && !flooded s key now, notify⟩,
    ⟨pruneSenders (countSender s key now) now, recentAlerts ++ [⟨key, now⟩],
      if notifiesFlood s key now then some now else s.floodNotifiedAt⟩)

structure AlertCall where
  key : String
  now : Int
deriving DecidableEq

def AlertThrottle.after (s : AlertThrottle) (c : AlertCall) : AlertThrottle :=
  (recordMecpAlert s c.key c.now).2

-- What a call decided, and which senders the cap made it forget.
structure DecidedCall extends AlertCall where
  decision : MecpThrottleDecision
  capped : List String
deriving DecidableEq

def AlertThrottle.decided (s : AlertThrottle) (c : AlertCall) : DecidedCall :=
  ⟨c, (recordMecpAlert s c.key c.now).1, cappedSenders (countSender s c.key c.now) c.now⟩

def AlertThrottle.history (s : AlertThrottle) : List AlertCall → List DecidedCall
  | [] => []
  | c :: rest => s.decided c :: (s.after c).history rest

-- The alerts among the calls from `t` to `t + length`, both ends included.
def alertsWithin (calls : List DecidedCall) (t length : Int) : List DecidedCall :=
  calls.filter fun d => d.decision.alert && decide (t ≤ d.now) && decide (d.now ≤ t + length)

def alertsOf (key : String) (calls : List DecidedCall) (t length : Int) : List DecidedCall :=
  (alertsWithin calls t length).filter fun d => decide (d.key = key)

-- The cap forgets `key` in none of the calls from `t` to `t + length`.
def NotCapped (key : String) (calls : List DecidedCall) (t length : Int) : Prop :=
  ∀ d ∈ calls, t ≤ d.now → d.now ≤ t + length → key ∉ d.capped

abbrev InTimeOrder (calls : List AlertCall) : Prop := calls.Pairwise fun a b => a.now ≤ b.now

variable {s : AlertThrottle} {key : String} {now : Int}

theorem alert_iff : (recordMecpAlert s key now).1.alert = true ↔
    (senderAlertsInWindow s key now).length < MECP_ALERT_THROTTLE_MAX ∧ floodActive s key now = false := by
  unfold recordMecpAlert flooded senderThrottled
  cases hf : floodActive s key now <;> simp

theorem isMecpAlertThrottled_eq :
    isMecpAlertThrottled s key now = !(recordMecpAlert s key now).1.alert := by
  unfold isMecpAlertThrottled recordMecpAlert flooded senderThrottled
  cases hf : floodActive s key now <;> simp

theorem alertsInWindow_expired {w : SenderWindow} (h : w.expired now = true) {later : Int}
    (hlater : now ≤ later) : alertsInWindow (some w) later = [] := by
  simp only [SenderWindow.expired, List.all_eq_true, decide_eq_true_eq] at h
  refine List.filter_eq_nil_iff.mpr fun time htime => ?_
  have hold := h time htime
  simp only [decide_eq_true_eq]
  omega

-- Pruning changes no sender's count, the senders over the cap apart.
theorem alertsInWindow_pruneSenders {senders : OrderedMap String SenderWindow}
    (hkept : key ∉ cappedSenders senders now) {later : Int} (hlater : now ≤ later) :
    alertsInWindow ((pruneSenders senders now).get? key) later =
      alertsInWindow (senders.get? key) later := by
  unfold pruneSenders
  unfold cappedSenders at hkept
  split_ifs with hsize
  · rfl
  · rw [if_neg hsize] at hkept
    rw [OrderedMap.get?_drop _ hkept, unexpired, OrderedMap.get?_filter]
    cases hw : senders.get? key with
    | none => rfl
    | some w =>
        cases hexpired : w.expired now with
        | false => simp [Option.filter, hexpired]
        | true =>
            rw [alertsInWindow_expired hexpired hlater]
            simp [Option.filter, hexpired, alertsInWindow]

theorem alertsInWindow_window (alerts : List Int) (notifiedAt : Option Int) {later : Int}
    (hlater : now ≤ later) :
    alertsInWindow (some ⟨alerts.filter (fun time => decide (now - time ≤ MECP_ALERT_THROTTLE_WINDOW_MS)),
      notifiedAt⟩) later = alertsInWindow (some ⟨alerts, notifiedAt⟩) later := by
  simp only [alertsInWindow, Option.map_some, Option.getD_some, List.filter_filter]
  refine List.filter_congr fun time _ => ?_
  rw [← Bool.decide_and, decide_eq_decide]
  omega

theorem alertsInWindow_appended {w : Option SenderWindow} {notifiedAt : Option Int} {later : Int}
    (hlater : now ≤ later) :
    alertsInWindow (some ⟨alertsInWindow w now ++ [now], notifiedAt⟩) later =
      alertsInWindow w later ++
        [now].filter fun time => decide (later - time ≤ MECP_ALERT_THROTTLE_WINDOW_MS) := by
  simp only [alertsInWindow, Option.map_some, Option.getD_some, List.filter_append, List.filter_filter]
  congr 1
  refine List.filter_congr fun time _ => ?_
  rw [← Bool.decide_and, decide_eq_decide]
  omega

theorem countSender_cases :
    flooded s key now = true ∧ countSender s key now = s.senders ∨
      ∃ notifiedAt, countSender s key now =
        s.senders.set key ⟨senderAlertsInWindow s key now ++ [now], notifiedAt⟩ := by
  unfold countSender
  dsimp only
  split_ifs with hnewcomer
  · exact .inl ⟨(Bool.and_eq_true_iff.mp hnewcomer).1, rfl⟩
  · exact .inr ⟨_, rfl⟩
  · exact .inr ⟨_, rfl⟩

theorem senderAlertsInWindow_pruned (c : AlertCall) (hkept : key ∉ (s.decided c).capped) {later : Int}
    (hlater : c.now ≤ later) :
    senderAlertsInWindow (s.after c) key later =
      alertsInWindow ((countSender s c.key c.now).get? key) later :=
  alertsInWindow_pruneSenders hkept hlater

-- A call adds to the count of its own sender and takes nothing from any sender the cap keeps.
theorem senderAlertsInWindow_after (c : AlertCall) (hkept : key ∉ (s.decided c).capped) {later : Int}
    (hlater : c.now ≤ later) :
    (senderAlertsInWindow s key later).Sublist (senderAlertsInWindow (s.after c) key later) := by
  rw [senderAlertsInWindow_pruned c hkept hlater]
  obtain ⟨_, hcount⟩ | ⟨notifiedAt, hcount⟩ := @countSender_cases s c.key c.now
  · rw [hcount]
    exact List.Sublist.refl _
  · rw [hcount]
    by_cases hkey : key = c.key
    · subst hkey
      rw [OrderedMap.get?_set_self, senderAlertsInWindow, senderAlertsInWindow,
        alertsInWindow_appended hlater]
      exact List.sublist_append_left _ _
    · rw [OrderedMap.get?_set_of_ne _ _ hkey]
      exact List.Sublist.refl _

theorem senderAlertsInWindow_after_alert (c : AlertCall) (halert : (s.decided c).decision.alert = true)
    (hkept : c.key ∉ (s.decided c).capped) {later : Int} (hlater : c.now ≤ later)
    (hwindow : later ≤ c.now + MECP_ALERT_THROTTLE_WINDOW_MS) :
    senderAlertsInWindow (s.after c) c.key later = senderAlertsInWindow s c.key later ++ [c.now] := by
  have hcalm : flooded s c.key c.now = false := by
    unfold flooded
    rw [(alert_iff.mp halert).2, Bool.and_false]
  have hin : later - c.now ≤ MECP_ALERT_THROTTLE_WINDOW_MS := by omega
  rw [senderAlertsInWindow_pruned c hkept hlater]
  obtain ⟨hflooded, _⟩ | ⟨notifiedAt, hcount⟩ := @countSender_cases s c.key c.now
  · rw [hcalm] at hflooded
    exact absurd hflooded Bool.false_ne_true
  · rw [hcount, OrderedMap.get?_set_self, senderAlertsInWindow, senderAlertsInWindow,
      alertsInWindow_appended hlater, List.filter_cons_of_pos (by simpa using hin), List.filter_nil]

@[simp] theorem decided_key (c : AlertCall) : (s.decided c).key = c.key := rfl

@[simp] theorem decided_now (c : AlertCall) : (s.decided c).now = c.now := rfl

theorem history_concat (calls : List AlertCall) (c : AlertCall) :
    s.history (calls ++ [c]) =
      s.history calls ++ [(Run.run AlertThrottle.after s calls).decided c] := by
  induction calls generalizing s with
  | nil => rfl
  | cons first rest ih => exact congrArg (s.decided first :: ·) ih

theorem history_calls (calls : List AlertCall) :
    (s.history calls).map DecidedCall.toAlertCall = calls := by
  induction calls generalizing s with
  | nil => rfl
  | cons first rest ih => exact congrArg (first :: ·) ih

theorem mem_calls_of_history {calls : List AlertCall} {d : DecidedCall} (h : d ∈ s.history calls) :
    d.toAlertCall ∈ calls := by
  have hmem := List.mem_map_of_mem (f := DecidedCall.toAlertCall) h
  rwa [history_calls] at hmem

theorem alertsOf_concat (calls : List DecidedCall) (d : DecidedCall) (t length : Int) :
    alertsOf key (calls ++ [d]) t length = alertsOf key calls t length ++
      if d.decision.alert = true ∧ t ≤ d.now ∧ d.now ≤ t + length ∧ d.key = key then [d] else [] := by
  simp only [alertsOf, alertsWithin, List.filter_append, List.filter_filter]
  congr 1
  by_cases hd : d.decision.alert = true ∧ t ≤ d.now ∧ d.now ≤ t + length ∧ d.key = key
  · rw [if_pos hd, List.filter_cons_of_pos (by simp [hd]), List.filter_nil]
  · rw [if_neg hd, List.filter_cons_of_neg (by
      simp only [Bool.and_eq_true, decide_eq_true_eq]
      tauto), List.filter_nil]

theorem alertsOf_eq_nil {calls : List DecidedCall} {t length : Int} (h : ∀ d ∈ calls, d.now < t) :
    alertsOf key calls t length = [] := by
  refine List.filter_eq_nil_iff.mpr fun d hd => ?_
  have hmem := List.mem_filter.mp hd
  have hearly := h d hmem.1
  simp only [Bool.and_eq_true, decide_eq_true_eq] at hmem
  omega

-- What is remembered of a sender covers every alert it got since `t`, as long as the cap has
-- kept it since and the window is not over.
theorem alertsOf_remembered (calls : List AlertCall) (hsorted : InTimeOrder calls) {t later : Int}
    (hlast : ∀ c ∈ calls, c.now ≤ later) (hwindow : later ≤ t + MECP_ALERT_THROTTLE_WINDOW_MS)
    (hkept : NotCapped key (s.history calls) t MECP_ALERT_THROTTLE_WINDOW_MS) :
    ((alertsOf key (s.history calls) t MECP_ALERT_THROTTLE_WINDOW_MS).map (·.now)).Sublist
      (senderAlertsInWindow (Run.run AlertThrottle.after s calls) key later) := by
  induction calls using List.reverseRecOn with
  | nil => exact List.nil_sublist _
  | append_singleton calls c ih =>
      obtain ⟨hsorted, _, hlate⟩ := List.pairwise_append.mp hsorted
      have hearlier : ∀ c' ∈ calls, c'.now ≤ c.now := fun c' hc' =>
        hlate c' hc' c (List.mem_singleton_self c)
      have hnow : c.now ≤ later := hlast c (by simp)
      rw [Run.run_concat]
      rw [history_concat] at hkept ⊢
      rw [alertsOf_concat]
      set s' := Run.run AlertThrottle.after s calls
      have hstays : t ≤ c.now → key ∉ (s'.decided c).capped := fun ht =>
        hkept _ (by simp) ht (hnow.trans hwindow)
      have hbefore := ih hsorted (fun c' hc' => (hearlier c' hc').trans hnow)
        fun d hd => hkept d (List.mem_append_left _ hd)
      split_ifs with halert
      · obtain ⟨halert, ht, hlength, rfl⟩ := halert
        simp only [decided_now, decided_key] at ht hstays hbefore ⊢
        rw [List.map_append, senderAlertsInWindow_after_alert c halert (hstays ht) hnow (by omega)]
        exact List.Sublist.append hbefore (List.Sublist.refl _)
      · rw [List.append_nil]
        by_cases ht : t ≤ c.now
        · exact hbefore.trans (senderAlertsInWindow_after c (hstays ht) hnow)
        · rw [alertsOf_eq_nil]
          · exact List.nil_sublist _
          · intro d hd
            have hle := hearlier _ (mem_calls_of_history hd)
            have hlt : c.now < t := not_le.mp ht
            exact lt_of_le_of_lt hle hlt

-- No sender the cap keeps gets more alerts in a window than the limit allows.
theorem alertsOf_length_le (calls : List AlertCall) (hsorted : InTimeOrder calls) (t : Int)
    (hkept : NotCapped key (s.history calls) t MECP_ALERT_THROTTLE_WINDOW_MS) :
    (alertsOf key (s.history calls) t MECP_ALERT_THROTTLE_WINDOW_MS).length ≤ MECP_ALERT_THROTTLE_MAX := by
  induction calls using List.reverseRecOn with
  | nil => exact Nat.zero_le _
  | append_singleton calls c ih =>
      obtain ⟨hsorted, _, hlate⟩ := List.pairwise_append.mp hsorted
      rw [history_concat] at hkept ⊢
      rw [alertsOf_concat]
      have hbefore : NotCapped key (s.history calls) t MECP_ALERT_THROTTLE_WINDOW_MS :=
        fun d hd => hkept d (List.mem_append_left _ hd)
      split_ifs with halert
      · obtain ⟨halert, _, hwindow, rfl⟩ := halert
        have hremembered := (alertsOf_remembered calls hsorted
          (fun c' hc' => hlate c' hc' c (List.mem_singleton_self c)) hwindow hbefore).length_le
        have hfew := (alert_iff.mp halert).1
        simp only [List.length_map, List.length_append, List.length_singleton, decided_key]
          at hremembered ⊢
        omega
      · rw [List.append_nil]
        exact ih hsorted hbefore

-- Every call is remembered for the length of the flood window.
theorem recentAlerts_remembered (calls : List AlertCall) (hsorted : InTimeOrder calls) {c : AlertCall}
    (hc : c ∈ calls) (hrecent : ∀ c' ∈ calls, c'.now ≤ c.now + MECP_ALERT_FLOOD_WINDOW_MS) :
    ⟨c.key, c.now⟩ ∈ (Run.run AlertThrottle.after s calls).recentAlerts := by
  induction calls using List.reverseRecOn with
  | nil => simp at hc
  | append_singleton calls last ih =>
      rw [Run.run_concat]
      change _ ∈ List.filter _ _ ++ [_]
      rcases List.mem_append.mp hc with hc | hc
      · have hkept := ih (List.pairwise_append.mp hsorted).1 hc fun c' hc' => hrecent c' (by simp [hc'])
        have hlast := hrecent last (by simp)
        refine List.mem_append_left _ (List.mem_filter.mpr ⟨hkept, ?_⟩)
        have hwithin : last.now - c.now ≤ MECP_ALERT_FLOOD_WINDOW_MS := by omega
        exact decide_eq_true hwithin
      · rw [List.mem_singleton.mp hc]
        exact List.mem_append_right _ (List.mem_singleton_self _)

def alertingSenders (calls : List DecidedCall) (t : Int) : Finset String :=
  ((alertsWithin calls t MECP_ALERT_FLOOD_WINDOW_MS).map (·.key)).toFinset

theorem alertingSenders_concat (calls : List DecidedCall) (d : DecidedCall) (t : Int) :
    alertingSenders (calls ++ [d]) t =
      if d.decision.alert = true ∧ t ≤ d.now ∧ d.now ≤ t + MECP_ALERT_FLOOD_WINDOW_MS then
        insert d.key (alertingSenders calls t)
      else alertingSenders calls t := by
  unfold alertingSenders alertsWithin
  rw [List.filter_append]
  split_ifs with hd
  · rw [List.filter_cons_of_pos (by simp [hd]), List.filter_nil]
    simp [Finset.union_comm]
  · rw [List.filter_cons_of_neg (by
      simp only [Bool.and_eq_true, decide_eq_true_eq]
      tauto), List.filter_nil, List.append_nil]

-- The senders that alerted in the window count against the flood limit of any other sender.
theorem alertingSenders_erase_subset (calls : List AlertCall) (hsorted : InTimeOrder calls) {t : Int}
    (hlast : ∀ c ∈ calls, c.now ≤ now) (hwindow : now ≤ t + MECP_ALERT_FLOOD_WINDOW_MS) :
    (alertingSenders (s.history calls) t).erase key ⊆
      floodSenders (Run.run AlertThrottle.after s calls) key now := by
  intro other hother
  obtain ⟨hne, hother⟩ := Finset.mem_erase.mp hother
  obtain ⟨d, hd, rfl⟩ := List.mem_map.mp (List.mem_toFinset.mp hother)
  obtain ⟨hd, hcounted⟩ := List.mem_filter.mp hd
  simp only [Bool.and_eq_true, decide_eq_true_eq] at hcounted
  have hremembered := @recentAlerts_remembered s calls hsorted d.toAlertCall (mem_calls_of_history hd)
    fun c hc => (hlast c hc).trans (by omega)
  refine List.mem_toFinset.mpr (List.mem_map.mpr ⟨_, List.mem_filter.mpr ⟨hremembered, ?_⟩, rfl⟩)
  have hrecent : now - d.now ≤ MECP_ALERT_FLOOD_WINDOW_MS := by omega
  simp [hrecent, hne]

theorem alertingSenders_card_le (calls : List AlertCall) (hsorted : InTimeOrder calls) (t : Int) :
    (alertingSenders (s.history calls) t).card ≤ MECP_ALERT_FLOOD_MAX_SENDERS := by
  induction calls using List.reverseRecOn with
  | nil => exact Nat.zero_le _
  | append_singleton calls c ih =>
      obtain ⟨hsorted, _, hlate⟩ := List.pairwise_append.mp hsorted
      rw [history_concat, alertingSenders_concat]
      split_ifs with halert
      · obtain ⟨halert, _, hwindow⟩ := halert
        have hsubset : (alertingSenders (s.history calls) t).erase c.key ⊆
            floodSenders (Run.run AlertThrottle.after s calls) c.key c.now :=
          alertingSenders_erase_subset calls hsorted
            (fun c' hc' => hlate c' hc' c (List.mem_singleton_self c)) hwindow
        have hothers := Finset.card_le_card hsubset
        have hcalm := (alert_iff.mp halert).2
        simp only [floodActive, decide_eq_false_iff_not, not_le] at hcalm
        rw [decided_key]
        have hinsert := Finset.card_erase_of_mem
          (Finset.mem_insert_self c.key (alertingSenders (s.history calls) t))
        rw [Finset.erase_insert_eq_erase] at hinsert
        omega
      · exact ih hsorted

-- The alerts of one sender and the senders of a flood are bounded in every window, and the
-- read-only check answers what the next call would decide.
theorem alert_throttle_bounds (calls : List AlertCall) (hsorted : InTimeOrder calls) :
    (∀ key t, NotCapped key (AlertThrottle.fresh.history calls) t MECP_ALERT_THROTTLE_WINDOW_MS →
      (alertsOf key (AlertThrottle.fresh.history calls) t MECP_ALERT_THROTTLE_WINDOW_MS).length ≤
        MECP_ALERT_THROTTLE_MAX) ∧
    (∀ t, (alertingSenders (AlertThrottle.fresh.history calls) t).card ≤ MECP_ALERT_FLOOD_MAX_SENDERS) ∧
    ∀ key now, isMecpAlertThrottled (Run.run AlertThrottle.after .fresh calls) key now =
      !(recordMecpAlert (Run.run AlertThrottle.after .fresh calls) key now).1.alert :=
  ⟨fun _ t hkept => alertsOf_length_le calls hsorted t hkept, alertingSenders_card_le calls hsorted,
    fun _ _ => isMecpAlertThrottled_eq⟩

theorem alert_throttle_bounds_one_sender :
    (alertsOf "meshtastic:9" (AlertThrottle.fresh.history [⟨"meshtastic:9", 0⟩, ⟨"meshtastic:9", 1⟩,
      ⟨"meshtastic:9", 2⟩, ⟨"meshtastic:9", 3⟩]) 0 MECP_ALERT_THROTTLE_WINDOW_MS).length ≤
        MECP_ALERT_THROTTLE_MAX :=
  (alert_throttle_bounds _ (by decide)).1 _ 0 (by
    unfold NotCapped
    decide)

def senderName (i : Nat) : String := "meshtastic:" ++ toString i

theorem senderName_injective : Function.Injective senderName := fun _ _ h =>
  Nat.repr_injective ((String.append_right_inj _).mp h)

-- A thousand senders over some hours, each once.
def newcomers (n : Nat) : List AlertCall := (List.range n).map fun i => ⟨senderName i, 60001 * i⟩

-- The first `n` of them again, all at once.
def renewals (n : Nat) : List AlertCall := (List.range n).map fun i => ⟨senderName i, 70000000⟩

-- After the flood the first sender alerts twice, one more sender comes, and the first again.
def overfull : List AlertCall :=
  [⟨senderName 0, 70060001⟩, ⟨senderName 0, 70060001⟩, ⟨senderName 1000, 70060001⟩,
    ⟨senderName 0, 70060001⟩]

def cappedRun : List AlertCall := newcomers 1000 ++ renewals 1000 ++ overfull

theorem floodSenders_eq_empty
    (h : ∀ a ∈ s.recentAlerts, a.time + MECP_ALERT_FLOOD_WINDOW_MS < now ∨ a.key = key) :
    floodSenders s key now = ∅ := by
  rw [floodSenders, List.toFinset_eq_empty_iff, List.map_eq_nil_iff, List.filter_eq_nil_iff]
  intro a ha
  simp only [Bool.and_eq_true, decide_eq_true_eq, not_and_or, not_le, not_not]
  rcases h a ha with hold | hsame
  · exact .inl (by omega)
  · exact .inr hsame

theorem recentAlerts_after {c : AlertCall} {a : RecentAlert} (h : a ∈ (s.after c).recentAlerts) :
    a ∈ s.recentAlerts ∧ c.now ≤ a.time + MECP_ALERT_FLOOD_WINDOW_MS ∨ a = ⟨c.key, c.now⟩ := by
  rcases List.mem_append.mp h with h | h
  · obtain ⟨ha, hrecent⟩ := List.mem_filter.mp h
    rw [decide_eq_true_eq] at hrecent
    exact .inl ⟨ha, by omega⟩
  · exact .inr (List.mem_singleton.mp h)

-- Below the cap a call that is let in sets its sender's window and touches no other.
theorem senders_after (c : AlertCall) (hin : flooded s c.key c.now = false ∨ c.key ∈ s.senders.keys)
    (hroom : (s.senders.set c.key ⟨senderAlertsInWindow s c.key c.now ++ [c.now], none⟩).size ≤
      MAX_TRACKED_SENDERS) :
    ∃ notifiedAt, (s.after c).senders =
      s.senders.set c.key ⟨senderAlertsInWindow s c.key c.now ++ [c.now], notifiedAt⟩ := by
  have hcount : ∃ notifiedAt, countSender s c.key c.now =
      s.senders.set c.key ⟨senderAlertsInWindow s c.key c.now ++ [c.now], notifiedAt⟩ := by
    refine ⟨if notifiesSender s c.key c.now then some c.now else prevNotifiedAt s c.key, ?_⟩
    unfold countSender
    refine if_neg ?_
    rcases hin with hcalm | hknown
    · simp [hcalm]
    · obtain ⟨w, hw⟩ := (OrderedMap.mem_keys_iff _ _).mp hknown
      simp [hw]
  obtain ⟨notifiedAt, hcount⟩ := hcount
  refine ⟨notifiedAt, ?_⟩
  change pruneSenders (countSender s c.key c.now) c.now = _
  rw [hcount, pruneSenders, if_pos]
  rw [OrderedMap.size_eq_keys_length, OrderedMap.keys_set] at hroom ⊢
  exact hroom

structure Filled (s : AlertThrottle) (n : Nat) : Prop where
  keys : s.senders.keys = (List.range n).map senderName
  old : ∀ k w, s.senders.get? k = some w → ∀ time ∈ w.alerts, time ≤ 60001 * n
  recent : ∀ a ∈ s.recentAlerts, a.time + 60001 ≤ 60001 * n

theorem senderName_notMem_range {n : Nat} : senderName n ∉ (List.range n).map senderName := by
  intro h
  obtain ⟨i, hi, hname⟩ := List.mem_map.mp h
  have hlt := List.mem_range.mp hi
  have heq := senderName_injective hname
  omega

theorem Filled.after {n : Nat} (h : Filled s n) (hn : n < MAX_TRACKED_SENDERS) :
    Filled (s.after ⟨senderName n, 60001 * n⟩) (n + 1) := by
  have hnew : senderName n ∉ s.senders.keys := h.keys ▸ senderName_notMem_range
  have hnone : s.senders.get? (senderName n) = none := (OrderedMap.get?_eq_none_iff _ _).mpr hnew
  have hcalm : floodActive s (senderName n) (60001 * n) = false := by
    rw [floodActive, floodSenders_eq_empty]
    · rfl
    · intro a ha
      have hold := h.recent a ha
      exact .inl (by simp only [MECP_ALERT_FLOOD_WINDOW_MS, MS_PER_MINUTE]; omega)
  have hwindow : senderAlertsInWindow s (senderName n) (60001 * n) = [] := by
    rw [senderAlertsInWindow, hnone]
    rfl
  obtain ⟨notifiedAt, hafter⟩ := senders_after (s := s) ⟨senderName n, 60001 * n⟩
    (.inl (by rw [flooded, hcalm, Bool.and_false]))
    (by
      rw [OrderedMap.size_set_of_notMem _ _ hnew, OrderedMap.size_eq_keys_length, h.keys]
      simpa using hn)
  rw [hwindow] at hafter
  refine ⟨?_, ?_, ?_⟩
  · rw [hafter, OrderedMap.keys_set, if_neg hnew, h.keys, List.range_succ, List.map_append]
    rfl
  · intro k w hw time htime
    rw [hafter, OrderedMap.get?_set] at hw
    split_ifs at hw with hk
    · cases hw
      simp only [List.nil_append, List.mem_singleton] at htime
      push_cast
      omega
    · have hold := h.old k w hw time htime
      push_cast
      omega
  · intro a ha
    rcases recentAlerts_after ha with ⟨ha, _⟩ | rfl
    · have hold := h.recent a ha
      push_cast
      omega
    · push_cast
      omega

theorem newcomers_filled {n : Nat} (hn : n ≤ MAX_TRACKED_SENDERS) :
    Filled (Run.run AlertThrottle.after .fresh (newcomers n)) n := by
  induction n with
  | zero => exact ⟨rfl, fun _ _ h => absurd h (by simp [newcomers, AlertThrottle.fresh]), by simp [newcomers, AlertThrottle.fresh]⟩
  | succ n ih =>
      rw [newcomers, List.range_succ, List.map_append]
      rw [List.map_singleton, Run.run_concat]
      exact (ih (by omega)).after hn

structure Renewed (s : AlertThrottle) (m : Nat) : Prop where
  keys : s.senders.keys = (List.range MAX_TRACKED_SENDERS).map senderName
  renewed : ∀ i < m, ∃ notifiedAt, s.senders.get? (senderName i) = some ⟨[70000000], notifiedAt⟩
  old : ∀ i, m ≤ i → ∀ w, s.senders.get? (senderName i) = some w → ∀ time ∈ w.alerts, time ≤ 60001000
  recent : ∀ a ∈ s.recentAlerts, a.time ≤ 70000000

theorem Renewed.known {m : Nat} (h : Renewed s m) {i : Nat} (hi : i < MAX_TRACKED_SENDERS) :
    senderName i ∈ s.senders.keys :=
  h.keys ▸ List.mem_map_of_mem (List.mem_range.mpr hi)

theorem Renewed.window_eq_nil {m : Nat} (h : Renewed s m) (hm : m < MAX_TRACKED_SENDERS) :
    senderAlertsInWindow s (senderName m) 70000000 = [] := by
  obtain ⟨w, hw⟩ := (OrderedMap.mem_keys_iff _ _).mp (h.known hm)
  rw [senderAlertsInWindow, hw]
  refine List.filter_eq_nil_iff.mpr fun time htime => ?_
  have hold := h.old m le_rfl w hw time htime
  have hover : ¬ 70000000 - time ≤ MECP_ALERT_THROTTLE_WINDOW_MS := by
    simp only [MECP_ALERT_THROTTLE_WINDOW_MS, MS_PER_MINUTE]
    omega
  simpa using hover

theorem Renewed.after {m : Nat} (h : Renewed s m) (hm : m < MAX_TRACKED_SENDERS) :
    Renewed (s.after ⟨senderName m, 70000000⟩) (m + 1) := by
  have hknown := h.known hm
  obtain ⟨notifiedAt, hafter⟩ := senders_after (s := s) ⟨senderName m, 70000000⟩ (.inr hknown) (by
    rw [OrderedMap.size_set_of_mem _ _ hknown, OrderedMap.size_eq_keys_length, h.keys]
    simp)
  rw [h.window_eq_nil hm] at hafter
  refine ⟨?_, ?_, ?_, ?_⟩
  · rw [hafter, OrderedMap.keys_set, if_pos hknown, h.keys]
  · intro i hi
    rw [hafter, OrderedMap.get?_set]
    split_ifs with hname
    · exact ⟨notifiedAt, rfl⟩
    · have hne : i ≠ m := fun he => hname (congrArg senderName he)
      exact h.renewed i (by omega)
  · intro i hi w hw time htime
    have hne : senderName i ≠ senderName m := fun he => by
      have heq := senderName_injective he
      omega
    rw [hafter, OrderedMap.get?_set_of_ne _ _ hne] at hw
    exact h.old i (by omega) w hw time htime
  · intro a ha
    rcases recentAlerts_after ha with ⟨ha, _⟩ | rfl
    · exact h.recent a ha
    · exact le_rfl

theorem Filled.renewed (h : Filled s MAX_TRACKED_SENDERS) {m : Nat} (hm : m ≤ MAX_TRACKED_SENDERS) :
    Renewed (Run.run AlertThrottle.after s (renewals m)) m := by
  induction m with
  | zero =>
      refine ⟨h.keys, fun i hi => absurd hi (Nat.not_lt_zero i), fun i _ w hw time htime => ?_,
        fun a ha => ?_⟩
      · exact h.old _ w hw time htime
      · have hold := h.recent a ha
        simp only [MAX_TRACKED_SENDERS] at hold
        omega
  | succ m ih =>
      rw [renewals, List.range_succ, List.map_append, List.map_singleton, Run.run_concat]
      exact (ih (by omega)).after hm

theorem alert_of_quiet (c : AlertCall)
    (hfew : (senderAlertsInWindow s c.key c.now).length < MECP_ALERT_THROTTLE_MAX)
    (hcalm : (floodSenders s c.key c.now).card < MECP_ALERT_FLOOD_MAX_SENDERS) :
    (s.decided c).decision.alert = true :=
  alert_iff.mpr ⟨hfew, decide_eq_false (not_le.mpr hcalm)⟩

-- What is left of the flood when it is over: every sender still has an alert counted.
theorem Renewed.unexpired (h : Renewed s MAX_TRACKED_SENDERS) {k : String} {w : SenderWindow}
    (hw : s.senders.get? k = some w) : w.alerts = [70000000] := by
  have hk : k ∈ s.senders.keys := (OrderedMap.mem_keys_iff _ _).mpr ⟨w, hw⟩
  rw [h.keys] at hk
  obtain ⟨i, hi, rfl⟩ := List.mem_map.mp hk
  obtain ⟨notifiedAt, hrenewed⟩ := h.renewed i (List.mem_range.mp hi)
  rw [hrenewed, Option.some.injEq] at hw
  exact hw ▸ rfl

-- The state after the flood, when only the first sender has alerted again.
structure Calm (s : AlertThrottle) (count : Nat) : Prop where
  keys : s.senders.keys = (List.range MAX_TRACKED_SENDERS).map senderName
  counted : ∀ k w, s.senders.get? k = some w → ∃ time ∈ w.alerts, 70000000 ≤ time
  few : ∀ w, s.senders.get? (senderName 0) = some w → w.alerts.length ≤ count
  recent : ∀ a ∈ s.recentAlerts, a.time + MECP_ALERT_FLOOD_WINDOW_MS < 70060001 ∨ a.key = senderName 0

theorem Renewed.calm (h : Renewed s MAX_TRACKED_SENDERS) : Calm s 1 := by
  refine ⟨h.keys, fun k w hw => ⟨70000000, ?_, le_rfl⟩, fun w hw => ?_, fun a ha => .inl ?_⟩
  · rw [h.unexpired hw]
    exact List.mem_singleton_self _
  · rw [h.unexpired hw]
    rfl
  · have hold := h.recent a ha
    simp only [MECP_ALERT_FLOOD_WINDOW_MS, MS_PER_MINUTE]
    omega

theorem Calm.window_length_le {count : Nat} (h : Calm s count) :
    (senderAlertsInWindow s (senderName 0) 70060001).length ≤ count := by
  unfold senderAlertsInWindow
  cases hw : s.senders.get? (senderName 0) with
  | none => exact Nat.zero_le _
  | some w => exact (List.length_filter_le _ _).trans (h.few w hw)

theorem Calm.alert {count : Nat} (h : Calm s count) (hcount : count < MECP_ALERT_THROTTLE_MAX) :
    (s.decided ⟨senderName 0, 70060001⟩).decision.alert = true := by
  refine alert_of_quiet _ (h.window_length_le.trans_lt hcount) ?_
  rw [floodSenders_eq_empty h.recent]
  decide

theorem Calm.known {count : Nat} (h : Calm s count) : senderName 0 ∈ s.senders.keys :=
  h.keys ▸ List.mem_map_of_mem (List.mem_range.mpr (by decide))

theorem Calm.after {count : Nat} (h : Calm s count) :
    Calm (s.after ⟨senderName 0, 70060001⟩) (count + 1) := by
  obtain ⟨notifiedAt, hafter⟩ := senders_after (s := s) ⟨senderName 0, 70060001⟩ (.inr h.known) (by
    rw [OrderedMap.size_set_of_mem _ _ h.known, OrderedMap.size_eq_keys_length, h.keys]
    simp)
  refine ⟨?_, ?_, ?_, ?_⟩
  · rw [hafter, OrderedMap.keys_set, if_pos h.known, h.keys]
  · intro k w hw
    rw [hafter, OrderedMap.get?_set] at hw
    split_ifs at hw with hk
    · cases hw
      exact ⟨70060001, by simp, by decide⟩
    · exact h.counted k w hw
  · intro w hw
    rw [hafter, OrderedMap.get?_set_self] at hw
    cases hw
    simpa using h.window_length_le
  · intro a ha
    rcases recentAlerts_after ha with ⟨ha, _⟩ | rfl
    · exact h.recent a ha
    · exact .inr rfl

-- One sender too many: nobody has expired, so the oldest one leaves with its alerts.
theorem Calm.capped {count : Nat} (h : Calm s count) :
    (s.after ⟨senderName 1000, 70060001⟩).senders.get? (senderName 0) = none ∧
      floodSenders (s.after ⟨senderName 1000, 70060001⟩) (senderName 0) 70060001 ⊆ {senderName 1000} := by
  have hnew : senderName 1000 ∉ s.senders.keys := h.keys ▸ senderName_notMem_range
  have hcalm : flooded s (senderName 1000) 70060001 = false := by
    have hone : floodSenders s (senderName 1000) 70060001 ⊆ {senderName 0} := by
      intro k hk
      obtain ⟨a, ha, rfl⟩ := List.mem_map.mp (List.mem_toFinset.mp hk)
      obtain ⟨ha, hcounted⟩ := List.mem_filter.mp ha
      simp only [Bool.and_eq_true, decide_eq_true_eq] at hcounted
      rcases h.recent a ha with hold | hname
      · omega
      · exact Finset.mem_singleton.mpr hname
    have hcard := Finset.card_le_card hone
    rw [Finset.card_singleton] at hcard
    have hquiet : floodActive s (senderName 1000) 70060001 = false := by
      rw [floodActive, decide_eq_false_iff_not, not_le]
      exact hcard.trans_lt (by decide)
    rw [flooded, hquiet, Bool.and_false]
  constructor
  · change (pruneSenders (countSender s (senderName 1000) 70060001) 70060001).get? (senderName 0) = none
    obtain ⟨hflooded, _⟩ | ⟨notifiedAt, hcount⟩ := @countSender_cases s (senderName 1000) 70060001
    · rw [hcalm] at hflooded
      exact absurd hflooded Bool.false_ne_true
    · have hkeys : (countSender s (senderName 1000) 70060001).keys =
          (List.range (MAX_TRACKED_SENDERS + 1)).map senderName := by
        rw [hcount, OrderedMap.keys_set, if_neg hnew, h.keys, List.range_succ, List.map_append]
        rfl
      have hsize : (countSender s (senderName 1000) 70060001).size = MAX_TRACKED_SENDERS + 1 := by
        rw [OrderedMap.size_eq_keys_length, hkeys, List.length_map, List.length_range]
      have hlive : unexpired (countSender s (senderName 1000) 70060001) 70060001 =
          countSender s (senderName 1000) 70060001 := by
        refine OrderedMap.filter_eq_self _ _ fun k w hw => ?_
        have hcounted : ∃ time ∈ w.alerts, 70000000 ≤ time := by
          rw [hcount, OrderedMap.get?_set] at hw
          split_ifs at hw with hk
          · cases hw
            exact ⟨70060001, by simp, by decide⟩
          · exact h.counted k w hw
        obtain ⟨time, htime, hnow⟩ := hcounted
        have hstays : ¬ 70060001 - time > MECP_ALERT_THROTTLE_WINDOW_MS := by
          simp only [MECP_ALERT_THROTTLE_WINDOW_MS, MS_PER_MINUTE]
          omega
        rw [SenderWindow.expired, Bool.not_eq_true', List.all_eq_false]
        exact ⟨time, htime, by simpa using hstays⟩
      rw [pruneSenders, if_neg (by omega), overflow, hlive, hsize, OrderedMap.get?_eq_none_iff,
        OrderedMap.keys_drop, hkeys, Nat.add_sub_cancel_left, List.range_succ_eq_map]
      intro hmem
      rw [List.map_cons, List.drop_one, List.tail_cons, List.map_map] at hmem
      obtain ⟨i, _, hname⟩ := List.mem_map.mp hmem
      have hzero := senderName_injective hname
      omega
  · intro k hk
    obtain ⟨a, ha, rfl⟩ := List.mem_map.mp (List.mem_toFinset.mp hk)
    obtain ⟨ha, hcounted⟩ := List.mem_filter.mp ha
    simp only [Bool.and_eq_true, decide_eq_true_eq] at hcounted
    rcases recentAlerts_after ha with ⟨ha, _⟩ | rfl
    · rcases h.recent a ha with hold | hname
      · omega
      · exact absurd hname hcounted.2
    · exact Finset.mem_singleton_self _

theorem history_append (first second : List AlertCall) :
    s.history (first ++ second) =
      s.history first ++ (Run.run AlertThrottle.after s first).history second := by
  induction first generalizing s with
  | nil => rfl
  | cons c rest ih => exact congrArg (s.decided c :: ·) ih

theorem alertsOf_append (first second : List DecidedCall) (t length : Int) :
    alertsOf key (first ++ second) t length = alertsOf key first t length ++ alertsOf key second t length := by
  simp only [alertsOf, alertsWithin, List.filter_append]

theorem alertsOf_cons {rest : List DecidedCall} {t length : Int}
    (halert : (s.decided ⟨key, now⟩).decision.alert = true) (hin : t ≤ now ∧ now ≤ t + length) :
    alertsOf key (s.decided ⟨key, now⟩ :: rest) t length =
      s.decided ⟨key, now⟩ :: alertsOf key rest t length := by
  simp [alertsOf, alertsWithin, halert, hin]

theorem alertsOf_cons_of_ne {d : DecidedCall} {rest : List DecidedCall} {t length : Int}
    (h : d.key ≠ key) : alertsOf key (d :: rest) t length = alertsOf key rest t length := by
  simp [alertsOf, alertsWithin, List.filter_cons, apply_ite, h]

theorem cappedRun_inTimeOrder : InTimeOrder cappedRun := by
  have hnewcomers : InTimeOrder (newcomers 1000) :=
    List.pairwise_map.mpr (List.pairwise_lt_range.imp fun {a b} h => by
      simp only
      omega)
  have hrenewals : InTimeOrder (renewals 1000) :=
    List.pairwise_map.mpr (List.pairwise_lt_range.imp fun _ => le_rfl)
  have hbefore : ∀ c ∈ newcomers 1000, c.now ≤ 70000000 := by
    intro c hc
    obtain ⟨i, hi, rfl⟩ := List.mem_map.mp hc
    have hlt := List.mem_range.mp hi
    simp only
    omega
  have hflood : ∀ c ∈ renewals 1000, c.now = 70000000 := by
    intro c hc
    obtain ⟨i, _, rfl⟩ := List.mem_map.mp hc
    rfl
  have hafter : ∀ c ∈ overfull, c.now = 70060001 := by decide
  refine List.pairwise_append.mpr ⟨List.pairwise_append.mpr ⟨hnewcomers, hrenewals, ?_⟩, by decide, ?_⟩
  · intro a ha b hb
    rw [hflood b hb]
    exact hbefore a ha
  · intro a ha b hb
    rw [hafter b hb]
    rcases List.mem_append.mp ha with ha | ha
    · exact (hbefore a ha).trans (by decide)
    · exact (hflood a ha).trans_le (by decide)

theorem Filled.first_alert (h : Filled s MAX_TRACKED_SENDERS) :
    (s.decided ⟨senderName 0, 70000000⟩).decision.alert = true := by
  refine alert_of_quiet _ ?_ ?_
  · have hquiet : senderAlertsInWindow s (senderName 0) 70000000 = [] :=
      (h.renewed (Nat.zero_le _)).window_eq_nil (by decide)
    simp only [hquiet]
    decide
  · rw [floodSenders_eq_empty]
    · decide
    · intro a ha
      have hold := h.recent a ha
      simp only [MAX_TRACKED_SENDERS] at hold
      exact .inl (by simp only [MECP_ALERT_FLOOD_WINDOW_MS, MS_PER_MINUTE]; omega)

-- A thousand senders that alert again at the same time push the first of them out with its
-- count, and its fourth alert of the window sounds.
theorem capped_sender_alerts_again :
    InTimeOrder cappedRun ∧ MECP_ALERT_THROTTLE_MAX <
      (alertsOf (senderName 0) (AlertThrottle.fresh.history cappedRun) 70000000
        MECP_ALERT_THROTTLE_WINDOW_MS).length := by
  refine ⟨cappedRun_inTimeOrder, ?_⟩
  rw [cappedRun, history_append, history_append, alertsOf_append, alertsOf_append, Run.run_append]
  set filled := Run.run AlertThrottle.after .fresh (newcomers 1000)
  set renewed := Run.run AlertThrottle.after filled (renewals 1000)
  have h : Filled filled MAX_TRACKED_SENDERS := newcomers_filled le_rfl
  have hcalm : Calm renewed 1 := (h.renewed le_rfl).calm
  have hone : 1 ≤ (alertsOf (senderName 0) (filled.history (renewals 1000)) 70000000
      MECP_ALERT_THROTTLE_WINDOW_MS).length := by
    refine List.length_pos_of_mem (a := filled.decided ⟨senderName 0, 70000000⟩) ?_
    have hmem : filled.decided ⟨senderName 0, 70000000⟩ ∈ filled.history (renewals 1000) := by
      rw [renewals, List.range_succ_eq_map]
      exact List.mem_cons_self
    simp only [alertsOf, alertsWithin, List.mem_filter, hmem, h.first_alert]
    decide
  have hthree : (alertsOf (senderName 0) (renewed.history overfull) 70000000
      MECP_ALERT_THROTTLE_WINDOW_MS).length = 3 := by
    set second := renewed.after ⟨senderName 0, 70060001⟩
    set third := second.after ⟨senderName 0, 70060001⟩
    set last := third.after ⟨senderName 1000, 70060001⟩
    have hlast : (last.decided ⟨senderName 0, 70060001⟩).decision.alert = true := by
      obtain ⟨hnone, hothers⟩ := hcalm.after.after.capped
      refine alert_of_quiet _ ?_ ((Finset.card_le_card hothers).trans_lt (by decide))
      rw [senderAlertsInWindow, hnone]
      decide
    have hname : senderName 1000 ≠ senderName 0 := fun he => by
      have hzero := senderName_injective he
      omega
    change (alertsOf _ [renewed.decided _, second.decided _, third.decided _, last.decided _] _ _).length = 3
    have hin : (70000000 : Int) ≤ 70060001 ∧
        70060001 ≤ 70000000 + MECP_ALERT_THROTTLE_WINDOW_MS := by decide
    rw [alertsOf_cons (hcalm.alert (by decide)) hin, alertsOf_cons (hcalm.after.alert (by decide)) hin,
      alertsOf_cons_of_ne hname, alertsOf_cons hlast hin]
    rfl
  simp only [List.length_append, hthree, MECP_ALERT_THROTTLE_MAX]
  omega

end MeshClient.Mecp
