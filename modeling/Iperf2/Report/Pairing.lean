import Iperf2.Report.Members
import Iperf2.Report.Catchup

/-!
# What a report of a group takes in

The counter of a group report does not know whose interval it counts. It stands below the count of the members unless
one ends at the last missing interval, and a report has one interval of every member, of the number of the report, unless
one is ahead, behind or late.

* `trigger_not_stuck` : the counter stays below the count just as long as no member ends at the last missing interval;
* `interval_pairing` : every report has the interval of its number of every member, as long as all events are in turn; an
  event out of turn spoils the report that it falls in; the bytes of a report are those of its parts.
-/

namespace Iperf2.Report
open Transition

section
variable {ι : Type*} [DecidableEq ι]

/-! ## The counter -/

/-- A member ends only when more intervals than its own are missing, or when it is the last one. -/
def Members.KeepsRoom (r : Members ι) : MembersEvent ι → Prop
  | .record _ packet => packet.packetID < 0 → r.shared.threads + 1 < r.shared.count ∨ r.shared.count = 1
  | _ => True

/-- Records of the traffic, and flows that start it. -/
def Members.Traffic (_ : Members ι) : MembersEvent ι → Prop
  | .join _ => False
  | .times _ _ _ => True
  | .record _ packet => ¬ packet.packetID < 0

section
variable {grp : Settings} {flows : ι → Settings} {k : Shared} {r r' : Members ι} {t : Trigger.State ι}

/-- A guard of the members that is one of the counter. -/
theorem follows_of_reachable {G : Members ι → MembersEvent ι → Prop} (G' : Trigger.State ι → Trigger.Event ι → Prop)
    (hguard : ∀ (r : Members ι) (t : Trigger.State ι) e e', r.Follows k t → G r e → r.event k e = some e' → G' t e')
    {r₀ : Members ι} {t₀ : Trigger.State ι} (h₀ : r₀.Follows k t₀) (h : Reachable (Members.step k) G r₀ r) :
    ∃ t, Reachable (Trigger.step k.size) G' t₀ t ∧ r.Follows k t := by
  apply h.invariant
  · exact ⟨t₀, .start, h₀⟩
  · rintro r e r' ⟨t, ht, hfollows⟩ hG hstep
    rcases hfollows.next hstep with ⟨-, hfollows'⟩ | ⟨e', t', hevent, hstep', hfollows'⟩
    · exact ⟨t, ht, hfollows'⟩
    · exact ⟨t', .next e' ht (hguard r t e e' hfollows hG hevent) hstep', hfollows'⟩

omit [DecidableEq ι] in
/-- What an event of a group is. -/
theorem event_group {e : MembersEvent ι} {e' : Trigger.Event ι} (hevent : r.event .group e = some e') :
    (∃ i, e = .join i ∧ e' = .join i) ∨
      (∃ i packet, e = .record i packet ∧ packet.packetID < 0 ∧ e' = .leave i) ∨
      ∃ i packet skipped, e = .record i packet ∧ ¬ packet.packetID < 0 ∧ e' = .arrive i true skipped := by
  cases e with
  | join i => exact .inl ⟨i, rfl, (Option.some.inj hevent).symm⟩
  | times i ts sumts => cases hevent
  | record i packet =>
    simp only [Members.event] at hevent
    split_ifs at hevent with hlast hcross
    · exact .inr (.inl ⟨i, packet, rfl, hlast, (Option.some.inj hevent).symm⟩)
    · exact .inr (.inr ⟨i, packet, _, rfl, hlast, (Option.some.inj hevent).symm⟩)

omit [DecidableEq ι] in
theorem keepsRoom_follows (hfollows : r.Follows .group t) {e : MembersEvent ι} {e' : Trigger.Event ι}
    (hevent : r.event .group e = some e') : Trigger.KeepsRoom t e' ↔ r.KeepsRoom e := by
  obtain ⟨i, rfl, rfl⟩ | ⟨i, packet, rfl, hlast, rfl⟩ | ⟨i, packet, skipped, rfl, htraffic, rfl⟩ := event_group hevent
  · exact Iff.rfl
  · rw [Trigger.KeepsRoom, Members.KeepsRoom, hfollows.threads, hfollows.count rfl]
    exact ⟨fun h _ => h, fun h => h hlast⟩
  · exact ⟨fun _ h => absurd h htraffic, fun _ => rfl⟩

variable [Fintype ι]

/-- **The trigger.** As long as no member ends at the last missing interval the counter of a group with members is below
their count, and the intervals that are missing print a report. Any other step from there leaves it at the count. -/
theorem trigger_not_stuck (htime : ∀ i, TimeIntervals (flows i)) :
    ∀ r, Reachable (Members.step .group) Members.KeepsRoom (.start .group grp flows) r →
      (0 < r.shared.count → r.shared.threads < r.shared.count ∧
        ∀ r', Reachable (Members.step .group) Members.Traffic r r' → r.reports.length < r'.reports.length ∨
          (r'.parts.length : Int) + r.shared.threads < r.parts.length + r.shared.count) ∧
      ∀ e r', r.step .group e = some r' →
        ((0 < r'.shared.count → r'.shared.threads < r'.shared.count) ↔ r.KeepsRoom e) := by
  intro r hr
  obtain ⟨t, ht, hfollows⟩ := follows_of_reachable Trigger.KeepsRoom
    (fun r t e e' hfollows hG hevent => (keepsRoom_follows hfollows hevent).mpr hG) (.start htime) hr
  have hcounted := Trigger.counted_of_reachable ht
  have harmed := Trigger.armed_of_reachable ht
  have hbelow : ∀ {t : Trigger.State ι} {r : Members ι}, r.Follows .group t →
      ((0 < t.count → t.threads < t.count) ↔ (0 < r.shared.count → r.shared.threads < r.shared.count)) := by
    intro t r hfollows
    rw [hfollows.threads, hfollows.count rfl]
  refine ⟨fun hsome => ⟨(hbelow hfollows).mp harmed.lt_count hsome, fun r' hr' => ?_⟩, fun e r' hstep => ?_⟩
  · obtain ⟨t', ht', hfollows'⟩ := follows_of_reachable Trigger.Arrivals (fun r t e e' _ hG hevent => by
      obtain ⟨i, rfl, rfl⟩ | ⟨i, packet, rfl, hlast, rfl⟩ | ⟨i, packet, skipped, rfl, htraffic, rfl⟩ :=
        event_group hevent
      · exact absurd hG id
      · exact absurd hlast hG
      · exact ⟨i, skipped, rfl⟩) hfollows hr'
    have hfires := harmed.fires hcounted (by rwa [hfollows.count rfl]) ht'
    simp only [hfollows.rounds, hfollows'.rounds, hfollows.opened, hfollows'.opened, List.length_map,
      hfollows.threads, hfollows.count rfl] at hfires
    exact hfires
  · rcases hfollows.next hstep with ⟨hevent, hfollows'⟩ | ⟨e', t', hevent, hstep', hfollows'⟩
    · have hkeeps : r.KeepsRoom e := by
        cases e with
        | join i => trivial
        | times i ts sumts => trivial
        | record i packet =>
          intro hlast
          simp only [Members.event, if_pos hlast] at hevent
          cases hevent
      exact ⟨fun _ => hkeeps, fun _ => (hbelow hfollows').mp harmed.lt_count⟩
    · rw [← keepsRoom_follows hfollows hevent]
      have hmay : ∀ i skipped, e' ≠ .arrive i false skipped := by
        rintro i skipped rfl
        obtain ⟨j, -, hj⟩ | ⟨j, packet, -, -, hj⟩ | ⟨j, packet, n, -, -, hj⟩ := event_group hevent <;> cases hj
      rw [← harmed.step_iff hcounted hmay hstep', hbelow hfollows']

/-! ## The bytes of a report -/

/-- The shared report counts the bytes of the intervals that were added to it, and its reports show them. -/
structure Members.Adds (r : Members ι) : Prop where
  parts : r.freed = false → r.shared.info.total.Bytes.delta = (r.parts.map Part.bytes).sum
  reports : ∀ g ∈ r.reports, g.cntBytes = (g.parts.map Part.bytes).sum

omit [Fintype ι] [DecidableEq ι] in
theorem sum_append_part (parts : List (Part ι)) (p : Part ι) :
    ((parts ++ [p]).map Part.bytes).sum = (parts.map Part.bytes).sum + p.bytes := by
  rw [List.map_append, List.sum_append]
  simp

omit [Fintype ι] in
theorem Members.Adds.record (h : r.Adds) (hfollows : r.Follows k t) (hfreed : r.freed = false) (i : ι)
    (packet : ReportStruct) : (r.record k i packet).Adds := by
  have hdelta := h.parts hfreed
  by_cases hlast : packet.packetID < 0
  · obtain ⟨after, hget, -, -, hbytes⟩ :=
      record_final (hfollows.report i) (k.get_point (r.data i) r.shared) hlast
    have hshared : r.sharedAfter k i packet = after :=
      Members.sharedAfter_of_get hget
    rw [Members.record, if_pos hlast]
    refine ⟨fun hleft => ?_, h.reports⟩
    simp only [hshared, decide_eq_false_iff_not] at hleft ⊢
    rw [hbytes hleft, sum_append_part, hdelta]
  · by_cases hcross : crosses (r.report k i) packet = true
    · obtain ⟨sum, ts, hbytes, hget⟩ :=
        record_crosses (hfollows.report i) (k.get_point (r.data i) r.shared) hcross
      let reported := k.interval (r.report k i).info.common { r.shared with info := sum }
      have hshared : r.sharedAfter k i packet = { reported with info := { reported.info with ts } } :=
        Members.sharedAfter_of_get hget
      have hsame : k.fires (r.report k i).info.common { r.shared with info := sum } =
          k.fires (r.report k i).info.common r.shared := rfl
      rw [Members.record, if_neg hlast, if_pos hcross]
      by_cases hfire : k.fires (r.report k i).info.common r.shared = true
      · obtain ⟨-, -, hshown, hnone⟩ := interval_fires (hsame.trans hfire)
        rw [if_pos hfire]
        refine ⟨fun _ => ?_, fun g hg => ?_⟩
        · simp only [hshared]
          exact hnone
        · rcases List.mem_append.mp hg with hg | hg
          · exact h.reports g hg
          · rw [List.mem_singleton.mp hg]
            simp only [hshared]
            rw [sum_append_part, ← hdelta, ← hbytes]
            exact hshown
      · have hwaits := interval_waits (fun hf => hfire (hsame.symm.trans hf))
        rw [if_neg hfire]
        refine ⟨fun _ => ?_, h.reports⟩
        simp only [hshared, reported, hwaits]
        rw [sum_append_part, ← hdelta]
        exact hbytes
    · obtain ⟨ts, hget⟩ :=
        record_stays (hfollows.report i) (k.get_point (r.data i) r.shared) hlast hcross
      have hshared : r.sharedAfter k i packet = { r.shared with info := { r.shared.info with ts } } :=
        Members.sharedAfter_of_get hget
      rw [Members.record, if_neg hlast, if_neg hcross]
      exact ⟨fun _ => by simp only [hshared]; exact hdelta, h.reports⟩

omit [Fintype ι] in
theorem Members.Adds.next (h : r.Adds) (hfollows : r.Follows k t) {e : MembersEvent ι} (hstep : r.step k e = some r') :
    r'.Adds := by
  cases e with
  | join i =>
    simp only [Members.step] at hstep
    split_ifs at hstep
    obtain rfl := Option.some.inj hstep
    exact ⟨h.parts, h.reports⟩
  | times i ts sumts =>
    simp only [Members.step] at hstep
    split_ifs at hstep
    obtain rfl := Option.some.inj hstep
    exact ⟨h.parts, h.reports⟩
  | record i packet =>
    simp only [Members.step] at hstep
    split_ifs at hstep with hrunning
    obtain rfl := Option.some.inj hstep
    rw [Bool.and_eq_true, Bool.not_eq_true'] at hrunning
    exact h.record hfollows hrunning.2 i packet

/-! ## One interval of every member -/

/-- The report has one interval of each member that runs, and of those that ended since the last report; all have this
number. -/
structure GroupReport.Pairs (g : GroupReport ι) (n : Nat) : Prop where
  once : (g.parts.map Part.member).Nodup
  number : ∀ p ∈ g.parts, p.number = n
  all : ∀ i, g.running i = true → i ∈ g.parts.map Part.member

omit [Fintype ι] [DecidableEq ι] in
theorem pairs_round {g : GroupReport ι} {n : Nat} : g.round.Pairs n ↔ g.Pairs n := by
  have hmembers : g.round.arrivals.map Trigger.Arrival.member = g.parts.map Part.member := by
    simp [GroupReport.round, Part.arrival]
  constructor
  · intro h
    refine ⟨hmembers ▸ h.once, fun p hp => ?_, fun i hi => hmembers ▸ h.all i hi⟩
    exact h.number p.arrival (List.mem_map_of_mem hp)
  · intro h
    refine ⟨hmembers ▸ h.once, fun a ha => ?_, fun i hi => hmembers ▸ h.all i hi⟩
    obtain ⟨p, hp, rfl⟩ := List.mem_map.mp ha
    exact h.number p hp

/-- A flow joins, makes an interval report and ends only when it made as many interval reports as the group. -/
def Members.InTurn (k : Shared) (r : Members ι) : MembersEvent ι → Prop
  | .join i => r.reported i = r.reports.length
  | .times _ _ _ => True
  | .record i packet => packet.packetID < 0 ∨ crosses (r.report k i) packet = true → r.reported i = r.reports.length

omit [Fintype ι] [DecidableEq ι] in
theorem inTurn_follows (hfollows : r.Follows k t) {e : MembersEvent ι} {e' : Trigger.Event ι}
    (hevent : r.event k e = some e') : Trigger.InTurn t e' ↔ r.InTurn k e := by
  have hlength : t.rounds.length = r.reports.length := by rw [hfollows.rounds, List.length_map]
  cases e with
  | join i =>
    obtain rfl := Option.some.inj hevent
    rw [Trigger.InTurn, Members.InTurn, hlength, hfollows.came]
    rfl
  | times i ts sumts => cases hevent
  | record i packet =>
    simp only [Members.event] at hevent
    split_ifs at hevent with hlast hcross
    · obtain rfl := Option.some.inj hevent
      rw [Trigger.InTurn, Members.InTurn, hlength, hfollows.came]
      exact ⟨fun h _ => h, fun h => h (.inl hlast)⟩
    · obtain rfl := Option.some.inj hevent
      rw [Trigger.InTurn, Members.InTurn, hlength, hfollows.came]
      exact ⟨fun h _ => h, fun h => h (.inr hcross)⟩

omit [Fintype ι] [DecidableEq ι] in
theorem event_of_not_inTurn {e : MembersEvent ι} (hturn : ¬ r.InTurn k e) : ∃ e', r.event k e = some e' := by
  cases e with
  | join i => exact ⟨_, rfl⟩
  | times i ts sumts => exact absurd trivial hturn
  | record i packet =>
    obtain ⟨hcase, -⟩ := Classical.not_imp.mp hturn
    simp only [Members.event]
    split_ifs with hlast hcross
    · exact ⟨_, rfl⟩
    · exact ⟨_, rfl⟩
    · exact absurd (hcase.resolve_left hlast) hcross

/-- **Interval pairing.** In a run in turn every report has the interval of its number of every member. The report that
an event out of turn falls in does not. Every report shows the bytes of its intervals. -/
theorem interval_pairing (htime : ∀ i, TimeIntervals (flows i)) (hsize : Trigger.Fits ι k.size) :
    (∀ r, Reachable (Members.step k) (Members.InTurn k) (.start k grp flows) r →
      ∀ n (hn : n < r.reports.length), (r.reports[n]).Pairs n) ∧
    (∀ r e r' r'', Reachable (Members.step k) Any (.start k grp flows) r → r.step k e = some r' → ¬ r.InTurn k e →
      Reachable (Members.step k) Any r' r'' → ∀ hn : r.reports.length < r''.reports.length,
        ¬ (r''.reports[r.reports.length]).Pairs r.reports.length) ∧
    ∀ r, Reachable (Members.step k) Any (.start k grp flows) r →
      ∀ g ∈ r.reports, g.cntBytes = (g.parts.map Part.bytes).sum := by
  have hstart : (Members.start k grp flows).Follows k .empty := .start htime
  refine ⟨fun r hr n hn => ?_, fun r e r' r'' hr hstep hturn hr' hn => ?_, fun r hr => ?_⟩
  · obtain ⟨t, ht, hfollows⟩ := follows_of_reachable Trigger.InTurn
      (fun r t e e' hfollows hG hevent => (inTurn_follows hfollows hevent).mpr hG) hstart hr
    have hlength : n < t.rounds.length := by rwa [hfollows.rounds, List.length_map]
    have hpairs := Trigger.pairs_of_reachable hsize ht n hlength
    simp only [hfollows.rounds, List.getElem_map] at hpairs
    exact pairs_round.mp hpairs
  · obtain ⟨t, ht, hfollows⟩ := follows_of_reachable Any (fun _ _ _ _ _ _ _ => trivial) hstart hr
    obtain ⟨e', hevent⟩ := event_of_not_inTurn hturn
    obtain ⟨t', hstep', hfollows'⟩ : ∃ t', Trigger.step k.size t e' = some t' ∧ r'.Follows k t' := by
      rcases hfollows.next hstep with ⟨hnone, -⟩ | ⟨e'', t', hevent', hstep', hfollows'⟩
      · rw [hnone] at hevent
        cases hevent
      · obtain rfl := Option.some.inj (hevent.symm.trans hevent')
        exact ⟨t', hstep', hfollows'⟩
    obtain ⟨t'', ht'', hfollows''⟩ := follows_of_reachable Any (fun _ _ _ _ _ _ _ => trivial) hfollows' hr'
    have hlength : t.rounds.length = r.reports.length := by rw [hfollows.rounds, List.length_map]
    have hn' : t.rounds.length < t''.rounds.length := by
      rw [hlength, hfollows''.rounds, List.length_map]
      exact hn
    have hnot := Trigger.not_pairs (Trigger.counted_of_reachable ht)
      (fun h => hturn ((inTurn_follows hfollows hevent).mp h)) hstep' ht'' hn'
    simp only [hlength, hfollows''.rounds, List.getElem_map] at hnot
    exact fun hpairs => hnot (pairs_round.mpr hpairs)
  · have hboth : (∃ t, r.Follows k t) ∧ r.Adds := by
      apply hr.invariant
      · exact ⟨⟨_, hstart⟩, fun _ => rfl, nofun⟩
      · rintro r e r' ⟨⟨t, hfollows⟩, hadds⟩ - hstep
        refine ⟨?_, hadds.next hfollows hstep⟩
        rcases hfollows.next hstep with ⟨-, hfollows'⟩ | ⟨e', t', -, -, hfollows'⟩
        · exact ⟨t, hfollows'⟩
        · exact ⟨t', hfollows'⟩
    exact hboth.2.reports

end

end

/-! Two clients with a report every second that start at the same time. -/

instance (r : Members Bool) : (e : MembersEvent Bool) → Decidable (r.KeepsRoom e)
  | .join _ => .isTrue trivial
  | .times _ _ _ => .isTrue trivial
  | .record _ _ => inferInstanceAs (Decidable (_ → _))

instance (k : Shared) (r : Members Bool) : (e : MembersEvent Bool) → Decidable (r.InTurn k e)
  | .join _ => inferInstanceAs (Decidable (_ = _))
  | .times _ _ _ => .isTrue trivial
  | .record _ _ => inferInstanceAs (Decidable (_ → _))

def startTimes : ReportTimeStamps := setReportStartTime .client ⟨10, 0⟩ (intervalTimeStamps everySecond)

def bothStart : List (MembersEvent Bool) :=
  [.join false, .join true, .times false startTimes startTimes, .times true startTimes startTimes]

def twoClients : Members Bool := .start .group everySecond fun _ => everySecond

theorem everySecond_time : ∀ _ : Bool, TimeIntervals everySecond := fun _ => ⟨nofun, rfl⟩

/-- The last packet of a client. -/
def lastAt (packetTime : Timeval) : ReportStruct := { packetAt packetTime with packetID := -1 }

/-- One of them has its interval report. -/
theorem trigger_not_stuck_two :
    ∃ r, run (Members.step .group) Members.KeepsRoom twoClients
        (bothStart ++ [.record false (packetAt ⟨11, 500000⟩)]) = some r ∧
      r.shared.count = 2 ∧ r.shared.threads = 1 ∧ r.shared.threads < r.shared.count := by
  have hrun : (run (Members.step .group) Members.KeepsRoom twoClients
      (bothStart ++ [.record false (packetAt ⟨11, 500000⟩)])).map (fun r => (r.shared.count, r.shared.threads)) =
      some (2, 1) := by decide +kernel
  obtain ⟨r, hr, hvalues⟩ := Option.map_eq_some_iff.mp hrun
  obtain ⟨hcount, hthreads⟩ := Prod.mk.inj hvalues
  have hbelow := (trigger_not_stuck everySecond_time r (.of_run _ _ .start hr)).1 (by rw [hcount]; decide)
  exact ⟨r, hr, hcount, hthreads, hbelow.1⟩

/-- The other one ends before its own: the next interval reports of the first print no group report. -/
theorem trigger_stuck :
    ∃ r, Reachable (Members.step .group) Any twoClients r ∧ 0 < r.shared.count ∧
      ¬ r.shared.threads < r.shared.count ∧ ∃ r', r.step .group (.record false (packetAt ⟨12, 500000⟩)) = some r' ∧
        r'.shared.threads = 2 ∧ r'.reports.length = 0 := by
  let events := bothStart ++ [.record false (packetAt ⟨11, 500000⟩), .record true (lastAt ⟨10, 700000⟩)]
  have hrun : (run (Members.step .group) Any twoClients events).map (fun r => (r.shared.count, r.shared.threads,
      (r.step .group (.record false (packetAt ⟨12, 500000⟩))).map
        fun r' => (r'.shared.threads, r'.reports.length))) = some (1, 1, some (2, 0)) := by decide +kernel
  obtain ⟨r, hr, hvalues⟩ := Option.map_eq_some_iff.mp hrun
  simp only [Prod.mk.injEq, Option.map_eq_some_iff] at hvalues
  obtain ⟨hcount, hthreads, r', hr', hthreads', hreports'⟩ := hvalues
  refine ⟨r, .of_run _ _ .start hr, ?_, ?_, r', hr', hthreads', hreports'⟩
  · rw [hcount]
    decide
  · rw [hcount, hthreads]
    decide

theorem fits_group : Trigger.Fits Bool Shared.group.size := fun _ hn => by cases hn

/-- Both have their first interval report. -/
theorem interval_pairing_two :
    ∃ r, run (Members.step .group) (Members.InTurn .group) twoClients
        (bothStart ++ [.record false (packetAt ⟨11, 500000⟩), .record true (packetAt ⟨11, 600000⟩)]) = some r ∧
      ∃ hn : 0 < r.reports.length, (r.reports[0]).Pairs 0 := by
  have hrun : (run (Members.step .group) (Members.InTurn .group) twoClients
      (bothStart ++ [.record false (packetAt ⟨11, 500000⟩), .record true (packetAt ⟨11, 600000⟩)])).map
      (fun r => r.reports.length) = some 1 := by decide +kernel
  obtain ⟨r, hr, hlength⟩ := Option.map_eq_some_iff.mp hrun
  have hn : 0 < r.reports.length := by rw [hlength]; decide
  exact ⟨r, hr, hn, (interval_pairing everySecond_time fits_group).1 r (.of_run _ _ .start hr) 0 hn⟩

/-- One of them runs ahead and has both intervals of the first report. -/
theorem interval_not_paired :
    ∃ r, Reachable (Members.step .group) Any twoClients r ∧
      ∃ hn : 0 < r.reports.length, (r.reports[0]).parts.map (fun p => (p.member, p.number)) = [(false, 0), (false, 1)] ∧
        ¬ (r.reports[0]).Pairs 0 := by
  let events := bothStart ++ [.record false (packetAt ⟨11, 500000⟩), .record false (packetAt ⟨12, 500000⟩)]
  have hrun : (run (Members.step .group) Any twoClients events).map
      (fun r => r.reports.map fun g => g.parts.map fun p => (p.member, p.number)) =
      some [[(false, 0), (false, 1)]] := by decide +kernel
  obtain ⟨r, hr, hreports⟩ := Option.map_eq_some_iff.mp hrun
  have hn : 0 < r.reports.length := by
    have hlength := congrArg List.length hreports
    rw [List.length_map] at hlength
    rw [hlength]
    decide
  have hparts : (r.reports[0]).parts.map (fun p => (p.member, p.number)) = [(false, 0), (false, 1)] := by
    have hfirst := List.getElem_of_eq hreports (i := 0) (by simpa using hn)
    simpa using hfirst
  refine ⟨r, .of_run _ _ .start hr, hn, hparts, fun hpairs => ?_⟩
  have honce := hpairs.once
  have hmembers : (r.reports[0]).parts.map Part.member =
      ((r.reports[0]).parts.map fun p => (p.member, p.number)).map Prod.fst := by
    simp
  rw [hmembers, hparts] at honce
  exact absurd honce (by decide)

end Iperf2.Report
