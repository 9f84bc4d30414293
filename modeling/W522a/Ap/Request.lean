import W522a.Ap.AssocReq

/-!
What a (re)association request does to a station: the ways through the handler, and what none of them
touches.
-/

namespace W522a.Ap

structure SameHolder (sta old : ApSta) : Prop where
  macaddr : sta.staMacaddr = old.staMacaddr
  associd : sta.staAssocid = old.staAssocid

theorem SameHolder.refl (sta : ApSta) : SameHolder sta sta := ⟨rfl, rfl⟩

theorem SameHolder.trans {first second third : ApSta} (one : SameHolder first second)
    (two : SameHolder second third) : SameHolder first third :=
  ⟨one.macaddr.trans two.macaddr, one.associd.trans two.associd⟩

/-- A station that also sleeps the same and has the same frames. -/
structure SamePower (sta old : ApSta) : Prop extends SameHolder sta old where
  pwrMgt : sta.nodePwrMgt = old.nodePwrMgt
  queue : sta.staPstxqueue = old.staPstxqueue

theorem SamePower.refl (sta : ApSta) : SamePower sta sta := ⟨⟨rfl, rfl⟩, rfl, rfl⟩

theorem SamePower.trans {first second third : ApSta} (one : SamePower first second)
    (two : SamePower second third) : SamePower first third :=
  ⟨one.toSameHolder.trans two.toSameHolder, one.pwrMgt.trans two.pwrMgt,
    one.queue.trans two.queue⟩

/-- A station that also is an ERP one the same. -/
structure SameKnown (sta old : ApSta) : Prop extends SamePower sta old where
  erp : sta.nodeErp = old.nodeErp

theorem SameKnown.refl (sta : ApSta) : SameKnown sta sta := ⟨SamePower.refl sta, rfl⟩

theorem SameKnown.trans {first second third : ApSta} (one : SameKnown first second)
    (two : SameKnown second third) : SameKnown first third :=
  ⟨one.toSamePower.trans two.toSamePower, one.erp.trans two.erp⟩

structure SameRules (sta old : ApSta) : Prop extends SameHolder sta old where
  capinfo : sta.staCapinfo = old.staCapinfo
  rates : sta.staRates = old.staRates
  erp : sta.nodeErp = old.nodeErp
  ht : sta.nodeHt = old.nodeHt
  chbw : sta.staChbw = old.staChbw
  intolerant : sta.node40Intolerant = old.node40Intolerant

theorem SameRules.refl (sta : ApSta) : SameRules sta sta :=
  ⟨SameHolder.refl sta, rfl, rfl, rfl, rfl, rfl, rfl⟩

theorem SameRules.trans {first second third : ApSta} (one : SameRules first second)
    (two : SameRules second third) : SameRules first third :=
  ⟨one.toSameHolder.trans two.toSameHolder, one.capinfo.trans two.capinfo,
    one.rates.trans two.rates, one.erp.trans two.erp, one.ht.trans two.ht,
    one.chbw.trans two.chbw, one.intolerant.trans two.intolerant⟩

def AssocVerdict.sta : AssocVerdict → ApSta
  | .refused _ sta => sta
  | .accepted sta => sta

private theorem assocSecurity_same (conf : AssocConf) (frame : AssocFrame) (mainMfp : Bool)
    (ie : Option Nat) (sta : ApSta) :
    SameKnown (assocSecurity conf frame mainMfp ie sta).2 sta := by
  unfold assocSecurity
  cases ie with
  | none => exact SameKnown.refl sta
  | some place =>
    dsimp only
    split
    · exact ⟨⟨⟨rfl, rfl⟩, rfl, rfl⟩, rfl⟩
    · split <;> exact ⟨⟨⟨rfl, rfl⟩, rfl, rfl⟩, rfl⟩

private theorem assocWme_same (frame : AssocFrame) (ie : Option Nat) (sta : ApSta) :
    SameKnown (assocWme frame ie sta) sta := by
  unfold assocWme
  cases ie with
  | none =>
    dsimp only
    split <;> exact ⟨⟨⟨rfl, rfl⟩, rfl, rfl⟩, rfl⟩
  | some place =>
    dsimp only
    split <;> exact ⟨⟨⟨rfl, rfl⟩, rfl, rfl⟩, rfl⟩

private theorem assocHt_same (conf : AssocConf) (ap : ApVif) (frame : AssocFrame) (ies : AssocIes)
    (sta other : ApSta) (some : assocHt conf ap frame ies sta = some other) :
    SameKnown other sta := by
  unfold assocHt at some
  by_cases enabled : (!wifiMacIsHtEnable conf ap.vmMacMode sta) = true
  · rw [if_pos enabled] at some
    obtain rfl := Option.some.inj some
    exact SameKnown.refl sta
  · rw [if_neg enabled] at some
    cases htcap : ies.htcap with
    | some place =>
      simp only [htcap] at some
      obtain rfl := Option.some.inj some
      exact ⟨⟨⟨rfl, rfl⟩, rfl, rfl⟩, rfl⟩
    | none =>
      simp only [htcap] at some
      split at some
      · cases some
      · obtain rfl := Option.some.inj some
        exact ⟨⟨⟨rfl, rfl⟩, rfl, rfl⟩, rfl⟩

private theorem assocVht_same (conf : AssocConf) (ap : ApVif) (mainsta : ApSta) (frame : AssocFrame)
    (ies : AssocIes) (sta : ApSta) :
    SameKnown (assocVht conf ap mainsta frame ies sta) sta := by
  have capable : SameKnown
      (if ies.vhtcap.isSome then wifiMacParseVhtCap ap.vmBandwidth sta else sta) sta := by
    split <;> exact ⟨⟨⟨rfl, rfl⟩, rfl, rfl⟩, rfl⟩
  unfold assocVht
  split
  · exact SameKnown.refl sta
  · dsimp only
    split
    · unfold wifiMacParseVhtOpMdNtf
      dsimp only
      split
      · exact ⟨⟨⟨capable.macaddr, capable.associd⟩, capable.pwrMgt, capable.queue⟩, capable.erp⟩
      · exact capable
    · exact capable

private theorem assocFields_same (conf : AssocConf) (frame : AssocFrame) (ies : AssocIes)
    (sta : ApSta) :
    SameKnown (assocFields conf frame ies sta) sta :=
  (assocWme_same frame ies.wme _).trans ⟨⟨⟨rfl, rfl⟩, rfl, rfl⟩, rfl⟩

private theorem assocCapabilities_same (conf : AssocConf) (ap : ApVif) (mainsta : ApSta)
    (frame : AssocFrame) (ies : AssocIes) (sta : ApSta) :
    SameKnown (assocCapabilities conf ap mainsta frame ies sta).sta sta := by
  unfold assocCapabilities
  dsimp only
  split
  · exact ⟨⟨⟨rfl, rfl⟩, rfl, rfl⟩, rfl⟩
  · refine SameKnown.trans ?_ ((assocFields_same conf frame ies { sta with
      staRates := wifiMacSetupRates conf mainsta.staRates (frameRates frame ies) }).trans
        ⟨⟨⟨rfl, rfl⟩, rfl, rfl⟩, rfl⟩)
    split
    · exact SameKnown.refl _
    · next other some => exact (assocVht_same ..).trans (assocHt_same _ _ _ _ _ _ some)

/-- The handler leaves the address, the association id, the power save state and the ERP mark of the
station. -/
theorem assocStation_same (conf : AssocConf) (ap : ApVif) (mainsta : ApSta) (frame : AssocFrame)
    (sta : ApSta) : SameKnown (assocStation conf ap mainsta frame sta).sta sta := by
  have secured := assocSecurity_same conf frame mainsta.nodeMfp (assocIes conf frame).2.wpa sta
  unfold assocStation
  dsimp only
  split
  · exact secured
  · split
    · exact secured
    · exact (assocCapabilities_same ..).trans secured

private theorem assocSecurity_rules (conf : AssocConf) (frame : AssocFrame) (mainMfp : Bool)
    (ie : Option Nat) (sta : ApSta) :
    SameRules (assocSecurity conf frame mainMfp ie sta).2 sta := by
  unfold assocSecurity
  cases ie with
  | none => exact SameRules.refl sta
  | some place =>
    dsimp only
    split
    · exact ⟨⟨rfl, rfl⟩, rfl, rfl, rfl, rfl, rfl, rfl⟩
    · split <;> exact ⟨⟨rfl, rfl⟩, rfl, rfl, rfl, rfl, rfl, rfl⟩

private theorem assocFields_rules (conf : AssocConf) (frame : AssocFrame) (ies : AssocIes)
    (sta : ApSta) :
    (assocFields conf frame ies sta).nodeHt = sta.nodeHt ∧
      (assocFields conf frame ies sta).staChbw = sta.staChbw ∧
      (assocFields conf frame ies sta).staCapinfo = frame.capinfo := by
  unfold assocFields assocWme
  cases ies.wme with
  | none =>
    dsimp only
    split <;> exact ⟨rfl, rfl, rfl⟩
  | some place =>
    dsimp only
    split <;> exact ⟨rfl, rfl, rfl⟩

/-- A station that is refused has the HT state and the width that it had, and the slots as well where
they matter. -/
theorem assocStation_refused {conf : AssocConf} {ap : ApVif} {mainsta sta refused : ApSta}
    {frame : AssocFrame} {status : Nat}
    (verdict : assocStation conf ap mainsta frame sta = .refused status refused) :
    refused.nodeHt = sta.nodeHt ∧ refused.staChbw = sta.staChbw ∧
      (sta.staAssocid ≠ 0 → wifinetInclude11g ap.vmMacMode = true →
        shortSlottime refused.staCapinfo = shortSlottime sta.staCapinfo) := by
  have secured := assocSecurity_rules conf frame mainsta.nodeMfp (assocIes conf frame).2.wpa sta
  unfold assocStation at verdict
  dsimp only at verdict
  split at verdict
  · obtain ⟨-, rfl⟩ := AssocVerdict.refused.inj verdict
    exact ⟨secured.ht, secured.chbw, fun _ _ => by rw [secured.capinfo]⟩
  · split at verdict
    · obtain ⟨-, rfl⟩ := AssocVerdict.refused.inj verdict
      exact ⟨secured.ht, secured.chbw, fun _ _ => by rw [secured.capinfo]⟩
    · unfold assocCapabilities at verdict
      dsimp only at verdict
      split at verdict
      · obtain ⟨-, rfl⟩ := AssocVerdict.refused.inj verdict
        exact ⟨secured.ht, secured.chbw, fun _ _ => congrArg shortSlottime secured.capinfo⟩
      · next slots =>
        split at verdict
        · obtain ⟨-, rfl⟩ := AssocVerdict.refused.inj verdict
          obtain ⟨ht, chbw, capinfo⟩ := assocFields_rules conf frame (assocIes conf frame).2
            { (assocSecurity conf frame mainsta.nodeMfp (assocIes conf frame).2.wpa sta).2 with
              staRates := wifiMacSetupRates conf mainsta.staRates
                (frameRates frame (assocIes conf frame).2) }
          refine ⟨ht.trans secured.ht, chbw.trans secured.chbw, fun assoc g => ?_⟩
          rw [secured.associd, secured.capinfo] at slots
          rw [capinfo]
          by_contra differ
          exact slots ⟨assoc, g, Ne.symm differ⟩
        · cases verdict

/-- What becomes of a request: it is dropped, the station is refused and leaves, it has what the frame
says, or it joins. -/
theorem wifiMacRecvAssocReq_cases (conf : AssocConf) (ap : ApVif) (frame : AssocFrame)
    (env : JoinEnv) :
    (assocVerdict conf ap frame = none ∧
      (wifiMacRecvAssocReq conf ap frame env = (ap, .dropped) ∨
      wifiMacRecvAssocReq conf ap frame env = (markReassoc ap frame.addr2, .dropped) ∨
      ∃ next, assocTarget (markReassoc ap frame.addr2) frame.addr2 = (next, none) ∧
        wifiMacRecvAssocReq conf ap frame env = (next, .dropped))) ∨
    ∃ mainsta next target,
      assocVerdict conf ap frame = some (target, assocStation conf next mainsta frame target) ∧
      assocTarget (markReassoc ap frame.addr2) frame.addr2 = (next, some target) ∧
      ((∃ status refused, assocStation conf next mainsta frame target =
          .refused status refused ∧
        wifiMacRecvAssocReq conf ap frame env =
          (wifiMacStaDisconnectFromAp next refused env.leave, .refused status)) ∨
      (∃ accepted, assocStation conf next mainsta frame target = .accepted accepted ∧
        accepted.staAssocid ≠ 0 ∧
        wifiMacRecvAssocReq conf ap frame env = (next.put accepted, .accepted)) ∨
      (∃ accepted, assocStation conf next mainsta frame target = .accepted accepted ∧
        accepted.staAssocid = 0 ∧
        wifiMacRecvAssocReq conf ap frame env =
          wifiMacStaConnect (next.put accepted) accepted env)) := by
  unfold wifiMacRecvAssocReq assocVerdict
  by_cases connected : conf.connected = true
  · rw [if_neg (by simp [connected]), if_neg (by simp [connected])]
    dsimp only
    cases main : (Ap.markReassoc ap frame.addr2).vmMainsta.bind
        (Ap.markReassoc ap frame.addr2).getSta with
    | none => exact Or.inl ⟨rfl, Or.inr (Or.inl rfl)⟩
    | some mainsta =>
      dsimp only
      by_cases malformed : assocMalformed conf frame = true
      · rw [if_pos malformed, if_pos malformed]
        exact Or.inl ⟨rfl, Or.inr (Or.inl rfl)⟩
      · rw [if_neg malformed, if_neg malformed]
        cases place : Ap.assocTarget (Ap.markReassoc ap frame.addr2) frame.addr2 with
        | mk next sta =>
          cases sta with
          | none => exact Or.inl ⟨rfl, Or.inr (Or.inr ⟨next, rfl, rfl⟩)⟩
          | some target =>
            refine Or.inr ⟨mainsta, next, target, rfl, rfl, ?_⟩
            dsimp only
            cases verdict : assocStation conf next mainsta frame target with
            | refused status refused => exact Or.inl ⟨status, refused, rfl, rfl⟩
            | accepted accepted =>
              dsimp only
              by_cases assoc : accepted.staAssocid = 0
              · rw [if_neg (not_not.mpr assoc)]
                exact Or.inr (Or.inr ⟨accepted, rfl, assoc, rfl⟩)
              · rw [if_pos assoc]
                exact Or.inr (Or.inl ⟨accepted, rfl, assoc, rfl⟩)
  · rw [if_pos (by simpa using connected), if_pos (by simpa using connected)]
    exact Or.inl ⟨rfl, Or.inl rfl⟩

section Target

variable {ap : ApVif} {macaddr : Nat} {sta : ApSta}

theorem getSta_self (found : ap.getSta macaddr = some sta) :
    ap.getSta sta.staMacaddr = some sta := by
  rw [Keyed.key_of_find found]
  exact found

theorem findTxSta_found (found : wifiMacFindTxSta ap macaddr = some sta) :
    ap.getSta sta.staMacaddr = some sta := by
  unfold wifiMacFindTxSta at found
  split at found
  · split at found
    · obtain ⟨main, -, here⟩ := Option.bind_eq_some_iff.mp found
      exact getSta_self here
    · cases found
  · exact getSta_self found

theorem markReassoc_cases (ap : ApVif) (macaddr : Nat) :
    markReassoc ap macaddr = ap ∨
    ∃ sta, ap.getSta sta.staMacaddr = some sta ∧
      markReassoc ap macaddr = ap.put { sta with nodeReassoc := true } := by
  unfold markReassoc
  cases found : wifiMacFindTxSta ap macaddr with
  | none => exact Or.inl rfl
  | some sta => exact Or.inr ⟨sta, findTxSta_found found, rfl⟩

/-- Marking the sender changes no station but for the mark. -/
theorem markReassoc_getSta (ap : ApVif) (macaddr other : Nat) :
    ((markReassoc ap macaddr).getSta other = none ↔ ap.getSta other = none) ∧
    ∀ sta, (markReassoc ap macaddr).getSta other = some sta →
      ∃ old, ap.getSta other = some old ∧
        (sta = old ∨ sta = { old with nodeReassoc := true }) := by
  rcases markReassoc_cases ap macaddr with same | ⟨marked, found, changed⟩
  · rw [same]
    exact ⟨Iff.rfl, fun sta here => ⟨sta, here, Or.inl rfl⟩⟩
  · rw [changed, ApVif.getSta, ApVif.put, Keyed.find_replace]
    refine ⟨Option.map_eq_none_iff, fun sta here => ?_⟩
    obtain ⟨old, place, rfl⟩ := Option.map_eq_some_iff.mp here
    refine ⟨old, place, ?_⟩
    split
    · next same =>
      have twice : some old = some marked := by
        rw [← place, ← found, ← Keyed.key_of_find place, same]
        rfl
      rw [Option.some.inj twice]
      exact Or.inr rfl
    · exact Or.inl rfl

/-- A new station, with the parameters of the main station. -/
def freshSta (macaddr : Nat) (authSae : Bool) (staRsn : Rsnparms) : ApSta :=
  { newSta macaddr with authSae := authSae, staRsn := staRsn }

/-- An unknown sender gets a place at the end of the table, or none. -/
theorem wifiMacBupBss_cases (absent : ap.getSta macaddr = none) :
    wifiMacBupBss ap macaddr = (ap, none) ∨
    ∃ authSae staRsn, ap.ntInited = true ∧
      wifiMacBupBss ap macaddr =
        ({ ap with ntNsta := ap.ntNsta ++ [freshSta macaddr authSae staRsn] },
          some (freshSta macaddr authSae staRsn)) := by
  unfold wifiMacBupBss
  cases main : ap.vmMainsta.bind ap.getSta with
  | none => exact Or.inl rfl
  | some mainsta =>
    unfold wifiMacGetStaNode
    by_cases inited : ap.ntInited = true
    · rw [if_neg (by simp [inited]), absent]
      refine Or.inr ⟨mainsta.authSae, mainsta.staRsn, inited, ?_⟩
      refine congrArg (fun table => ({ ap with ntNsta := table }, _)) ?_
      refine Keyed.replace_concat rfl ?_
      exact Keyed.absent_of_find absent
    · rw [if_pos (by simpa using inited)]
      exact Or.inl rfl

/-- The station of a request is none, that of the sender, or a new one at the end of the table. -/
theorem assocTarget_cases (ap : ApVif) (macaddr : Nat) :
    assocTarget ap macaddr = (ap, none) ∨
    (ap.vmMainsta ≠ some macaddr ∧
      ((∃ sta, ap.getSta macaddr = some sta ∧ assocTarget ap macaddr = (ap, some sta)) ∨
      (ap.getSta macaddr = none ∧ ap.ntInited = true ∧
        ∃ authSae staRsn, assocTarget ap macaddr =
          ({ ap with ntNsta := ap.ntNsta ++ [{ freshSta macaddr authSae staRsn with
              staInactReload := wifinetInactRun }] },
            some { freshSta macaddr authSae staRsn with
              staInactReload := wifinetInactRun })))) := by
  unfold assocTarget
  by_cases main : ap.vmMainsta = some macaddr
  · rw [if_pos main]
    exact Or.inl rfl
  · rw [if_neg main]
    cases found : ap.getSta macaddr with
    | some sta => exact Or.inr ⟨main, Or.inl ⟨sta, rfl, rfl⟩⟩
    | none =>
      rcases wifiMacBupBss_cases found with nowhere | ⟨authSae, staRsn, inited, placed⟩
      · dsimp only
        rw [nowhere]
        exact Or.inl rfl
      · dsimp only
        rw [placed]
        refine Or.inr ⟨main, Or.inr ⟨rfl, inited, authSae, staRsn, ?_⟩⟩
        refine congrArg (fun table => ({ ap with ntNsta := table }, _)) ?_
        refine Keyed.replace_concat rfl ?_
        exact Keyed.absent_of_find found

end Target

end W522a.Ap
