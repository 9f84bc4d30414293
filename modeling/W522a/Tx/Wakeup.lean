import W522a.Tx.Steps
import W522a.Tx.Waiting

/-!
No identifier that may send is forgotten: what is not paused and holds frames waits on its list in
every run in which nothing takes the pause from one that was unlinked while it was paused.
-/

namespace W522a.Tx.Lists

variable {Sta : Type} [DecidableEq Sta]

section Runs

/-- A completion that is one failure of the firmware too many for an access point. -/
def FailsOut (env : TxEnv) (ptxdesc : TxDesc) (txok : Bool) (tid : TxTid) : Prop :=
  drvTidIsHostap env = true ∧ ptxdesc.bAmpdu = true ∧ ptxdesc.attached = true ∧ txok = false ∧
    ptxdesc.bTcp = false ∧ apTxbaFwFailThreshold ≤ min (tid.txbaFwFailCnt + 1) 255

/-- The step ends the pause of an identifier without queueing it: `drv_txba_quarantine` outside
of the scheduler, or `drv_addba_clear`. -/
def GivesUp (lists : TxLists Sta) (moment : ListEnv Sta × ListEvent Sta) (key : TidKey Sta) :
    Prop :=
  let env := moment.1.sta key.sta
  match moment.2 with
  | .send _ target request =>
    target = key ∧ (drvTxPrepare request (load key lists)).1.bAmpdu = true ∧
      drvTidIsHostap env = true ∧ apAmpduPendingLimit ≤ lists.txdsPendingCnt key.queueId
  | .complete target index txok =>
    target = key ∧ ∃ ptxdesc, (lists.tid key).inHal[index]? = some ptxdesc ∧
      FailsOut env ptxdesc txok (lists.tid key)
  | .requestTimer target => target = key ∧ (lists.tid key).addbaExchangeinprogress = true
  | .rspProcess _ target rsp =>
    target = key ∧ rsp.statuscode ≠ wifinetStatusSuccess ∧
      (lists.tid key).addbaExchangeinprogress = false
  | .addbaClear sta => key.sta = sta ∧ (lists.tid key).addbaExchangecomplete = true
  | _ => False

/-- No pause is taken from an identifier that is paused with frames and off its list. -/
def WakeOk (lists : TxLists Sta) (moment : ListEnv Sta × ListEvent Sta) : Prop :=
  ∀ key, GivesUp lists moment key → ¬ Asleep (lists.tid key)

/-- The scheduler's lists. The flags say what is on them, everything once and where it belongs,
and what is not paused and has frames waits on the list of its category, which waits on the list
of the queue. -/
structure Scheduled (lists : TxLists Sta) : Prop where
  tids : ∀ key ac, key ∈ lists.tidQueue ac ↔ (lists.tid key).bWork = true ∧ key.ac = ac
  acs : ∀ ac queueId, ac ∈ lists.acq queueId ↔ lists.acWork ac = true ∧ ac.queueId = queueId
  tidsOnce : ∀ ac, (lists.tidQueue ac).Nodup
  acsOnce : ∀ queueId, (lists.acq queueId).Nodup
  wakes : ∀ key, (lists.tid key).paused = 0 → (lists.tid key).txdsQueue ≠ [] →
    key ∈ lists.tidQueue key.ac ∧ key.ac ∈ lists.acq key.queueId

omit [DecidableEq Sta] in
theorem Sound.scheduled {lists : TxLists Sta} (sound : Sound True none none lists) :
    Scheduled lists where
  tids := sound.tids.listed
  acs := sound.acs.listed
  tidsOnce := sound.tids.nodup
  acsOnce := sound.acs.nodup
  wakes := by
    intro key running queued
    have working := sound.awake trivial key (Option.some_ne_none key) running queued
    have listed : key ∈ lists.tidQueue key.ac := (sound.tids.flag_iff key).mp working
    refine ⟨listed, (sound.acs.flag_iff key.ac).mp ?_⟩
    exact sound.waiting key.ac (Option.some_ne_none key.ac) (List.ne_nil_of_mem listed)

omit [DecidableEq Sta] in
theorem drvTxlistSetup_sound (careful : Prop) (vid : Sta → Nat) :
    Sound careful none none (drvTxlistSetup vid) where
  tids := RunQueue.consistent_empty _
  acs := RunQueue.consistent_empty _
  waiting := fun _ _ queued => absurd rfl queued
  awake := fun _ _ _ _ queued => absurd rfl queued

/-- The only failures that end a pause are those of an access point's aggregate. -/
theorem noteFwResult_pause {env : TxEnv} {ptxdesc : TxDesc} {txok : Bool} {tid : TxTid}
    (ended : (noteFwResult env ptxdesc txok tid).paused ≠ tid.paused) :
    drvTidIsHostap env = true ∧ ptxdesc.bAmpdu = true ∧ ptxdesc.attached = true ∧
      txok = false ∧ apTxbaFwFailThreshold ≤ min (tid.txbaFwFailCnt + 1) 255 := by
  unfold noteFwResult at ended
  split at ended
  · exact absurd rfl ended
  · rename_i member
    split at ended
    · split at ended
      · exact absurd rfl ended
      · exact absurd rfl ended
    · rename_i failed
      dsimp only at ended
      split at ended
      · rename_i many
        simp only [Bool.not_eq_true', not_or, Bool.not_eq_false] at member
        exact ⟨member.1, member.2.1, member.2.2, Bool.eq_false_iff.mpr failed, many⟩
      · exact absurd rfl ended

private theorem completeAt_pause {env : TxEnv} {index : Nat} {txok : Bool} {tid : TxTid}
    (ended : (completeAt env index txok tid).paused ≠ tid.paused) :
    ∃ ptxdesc, tid.inHal[index]? = some ptxdesc ∧ FailsOut env ptxdesc txok tid := by
  unfold completeAt at ended
  split at ended
  · exact absurd rfl ended
  · rename_i ptxdesc found
    refine ⟨ptxdesc, found, ?_⟩
    unfold drvTxCompleteTask at ended
    split at ended
    · rename_i nobody
      obtain ⟨hostap, -, attached, -, -⟩ := noteFwResult_pause ended
      rcases nobody with orphan | detached
      · rw [attached] at orphan
        cases orphan
      · rw [Option.isNone_iff_eq_none] at detached
        unfold drvTidIsHostap at hostap
        rw [detached] at hostap
        cases hostap
    · obtain ⟨noted, same⟩ := noteCompletion_fixed ptxdesc
        { tid with inHal := tid.inHal.eraseIdx index }
      dsimp only at ended
      split at ended
      · exact absurd same ended
      · rename_i final
        have changed : (noteFwResult env ptxdesc txok (noteCompletion ptxdesc
            { tid with inHal := tid.inHal.eraseIdx index })).paused ≠
            (noteCompletion ptxdesc { tid with inHal := tid.inHal.eraseIdx index }).paused := by
          rw [same]
          exact ended
        obtain ⟨hostap, member, attached, failed, many⟩ := noteFwResult_pause changed
        rw [noteCompletion_failCnt] at many
        refine ⟨hostap, member, attached, failed, Bool.eq_false_iff.mpr fun tcp => ?_, many⟩
        exact final ⟨tcp, by rw [failed]; rfl⟩

private theorem completeNormalAt_patient (env : TxEnv) (index : Nat) (txok : Bool) (tid : TxTid) :
    Patient tid (completeNormalAt env index txok tid) := by
  refine (completeNormalAt_fixed env index txok tid).patient (of_not_not fun ended => ?_)
  unfold completeNormalAt at ended
  split at ended
  · exact ended rfl
  · rename_i ptxdesc found
    unfold drvTxCompleteTask at ended
    split at ended
    · obtain ⟨-, member, -⟩ := noteFwResult_pause ended
      rw [ptxdesc.2] at member
      cases member
    · obtain ⟨noted, same⟩ := noteCompletion_fixed ptxdesc.1
        { tid with normal := tid.normal.eraseIdx index }
      dsimp only at ended
      split at ended
      · exact ended same
      · have changed : (noteFwResult env ptxdesc.1 txok (noteCompletion ptxdesc.1
            { tid with normal := tid.normal.eraseIdx index })).paused ≠
            (noteCompletion ptxdesc.1 { tid with normal := tid.normal.eraseIdx index }).paused := by
          rw [same]
          exact ended
        obtain ⟨-, member, -⟩ := noteFwResult_pause changed
        rw [ptxdesc.2] at member
        cases member

private theorem drvAddbaTimer_pause {env : TxEnv} {tid : TxTid}
    (ended : (drvAddbaTimer env tid).paused ≠ tid.paused) :
    tid.addbaExchangeinprogress = true := by
  unfold drvAddbaTimer at ended
  by_cases pending : tid.addbaExchangeinprogress = true
  · exact pending
  · rw [if_neg pending] at ended
    exact absurd rfl ended

/-- Every step keeps flags and lists together, and what may send on its list unless the step gives
up what is asleep. -/
theorem listStep_sound {careful : Prop} (lists : TxLists Sta)
    (moment : ListEnv Sta × ListEvent Sta) (sound : Sound careful none none lists)
    (ok : careful → WakeOk lists moment) : Sound careful none none (listStep lists moment) := by
  obtain ⟨env, event⟩ := moment
  cases event with
  | send hal key request =>
    exact sound.send hal key request fun care member hostap full =>
      ok care key ⟨rfl, member, hostap, full⟩
  | task hal queueId => exact sound.task hal queueId
  | timeout waitMpduTimeout => exact ⟨sound.tids, sound.acs, sound.waiting, sound.awake⟩
  | complete key index txok =>
    refine sound.wake (completeAt_fixed _ index txok) key fun care ended => ?_
    have failing := completeAt_pause ended
    exact ok care key ⟨rfl, failing⟩
  | completeNormal key index txok => exact sound.focus (completeNormalAt_patient _ index txok) key
  | reqSetup key => exact sound.focus (drvAddbaReqSetup_patient _) key
  | rspProcess hal key rsp =>
    exact sound.rspProcess hal key rsp fun care refused idle => ok care key ⟨rfl, refused, idle⟩
  | requestTimer key =>
    refine sound.wake (drvAddbaTimer_fixed _) key fun care ended => ?_
    have pending := drvAddbaTimer_pause ended
    exact ok care key ⟨rfl, pending⟩
  | pause key => exact sound.focus drvTxlistPauseForStaTid_patient key
  | resume hal key => exact sound.resume hal key
  | flush key => exact sound.focus (drvTxlistFlushForStaTid_patient _) key
  | ampduDel key => exact sound.focus (drvTxampduDel_patient _) key
  | addbaClear sta =>
    exact sound.addbaClear sta fun care key own complete => ok care key ⟨own, complete⟩
  | pushPending vid queueId => exact sound.pushPending.1
  | flushfree vid => exact sound.flushfree
  | cleanup sta => exact sound.cleanup

/-- In every run in which nothing takes the pause from a sleeping identifier, flags and lists agree
and no identifier that may send is left with nobody to schedule it. -/
theorem noLostWakeup_run (vid : Sta → Nat) (moments : List (ListEnv Sta × ListEvent Sta))
    (ok : Machine.Along listStep WakeOk (drvTxlistSetup vid) moments) :
    Scheduled (Machine.run listStep (drvTxlistSetup vid) moments) :=
  (ok.invariant (fun lists moment sound careful => listStep_sound lists moment sound fun _ => careful)
    (drvTxlistSetup_sound True vid)).scheduled

/-- The same environment for every station, with aggregation configured. -/
def plainListEnv (env : TxEnv) : ListEnv Unit := ⟨fun _ => env, true⟩

/-- The identifier of best effort traffic of a single station. -/
def bestEffort : TidKey Unit := ⟨(), 0⟩

/-- A frame that waits through a pause and is resumed. -/
theorem noLostWakeup_resumed :
    Scheduled (Machine.run listStep (drvTxlistSetup fun _ => 0)
      [(plainListEnv (plainTxEnv 8), .reqSetup bestEffort),
        (plainListEnv (plainTxEnv 8), .rspProcess (roomyHal true) bestEffort ⟨0, 8, false⟩),
        (plainListEnv (plainTxEnv 8), .pause bestEffort),
        (plainListEnv (plainTxEnv 8), .send (roomyHal true) bestEffort (dataRequest 1 true)),
        (plainListEnv (plainTxEnv 8), .resume (roomyHal true) bestEffort)]) := by
  refine noLostWakeup_run _ _ ⟨fun _ never => never.elim, ?_, fun _ never => never.elim, ?_,
    fun _ never => never.elim, trivial⟩
  · exact fun key refused => absurd rfl refused.2.1
  · exact fun key full => absurd full.2.2.1 Bool.false_ne_true

/-- An access point, with aggregates of up to `subframes` frames. -/
def hostapEnv (subframes : Nat) : ListEnv Unit :=
  plainListEnv
    { plainTxEnv subframes with sta := some ⟨.hostap, true, true, false, -40, false⟩ }

/-- A paused identifier of an access point takes frames until the fuse of its list blows. -/
def fuseBlown : List (ListEnv Unit × ListEvent Unit) :=
  [(hostapEnv 1, .reqSetup bestEffort),
    (hostapEnv 1, .rspProcess (roomyHal true) bestEffort ⟨0, 64, false⟩),
    (hostapEnv 1, .pause bestEffort)] ++
  List.replicate 65 (hostapEnv 1, .send (roomyHal true) bestEffort (dataRequest 1 true))

/-- Four frames are on the air and a fifth waits as the station of an access point goes to sleep:
the scheduler unlinks the paused identifier, and then the four frames fail. -/
def sleptThrough : List (ListEnv Unit × ListEvent Unit) :=
  [(hostapEnv 1, .reqSetup bestEffort),
    (hostapEnv 1, .rspProcess (roomyHal true) bestEffort ⟨0, 64, false⟩)] ++
  List.replicate 4 (hostapEnv 1, .send (roomyHal true) bestEffort (dataRequest 1 true)) ++
  [(hostapEnv 1, .send (fun _ => ⟨0, true, true⟩) bestEffort (dataRequest 5 true)),
    (hostapEnv 1, .pause bestEffort),
    (hostapEnv 1, .task (roomyHal true) 0)] ++
  List.replicate 4 (hostapEnv 1, .complete bestEffort 0 false)

/-- In both runs the quarantine takes the pause away and queues nothing: frames of an identifier
that is not paused wait on no list. -/
theorem noLostWakeup_lost :
    ¬ Scheduled (Machine.run listStep (drvTxlistSetup fun _ => 0) fuseBlown) ∧
      ¬ Scheduled (Machine.run listStep (drvTxlistSetup fun _ => 0) sleptThrough) := by
  constructor
  · intro scheduled
    have listed := (scheduled.wakes bestEffort (by decide +kernel) (by decide +kernel)).1
    have nobody : (Machine.run listStep (drvTxlistSetup fun _ => 0) fuseBlown).tidQueue
        bestEffort.ac = [] := by decide +kernel
    rw [nobody] at listed
    cases listed
  · intro scheduled
    have listed := (scheduled.wakes bestEffort (by decide +kernel) (by decide +kernel)).1
    have nobody : (Machine.run listStep (drvTxlistSetup fun _ => 0) sleptThrough).tidQueue
        bestEffort.ac = [] := by decide +kernel
    rw [nobody] at listed
    cases listed

end Runs

end W522a.Tx.Lists
