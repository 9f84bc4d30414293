import Mathlib.Data.List.Forall2
import W522a.Mac.AmsduSplit
import W522a.Mac.TxAmsdu

/-!
The bytes of an A-MSDU that `wifi_mac_amsdu_aggr` makes: the receive side splits them into the
MSDUs that were copied, and their number is bounded by the lengths that were counted.
-/

namespace W522a.TxAmsdu

open Mac (Subframe roundup encodeAmsdu amsduLoop_frames etherHeaderLen llcSnapframelen)

section Encode

/-- Subframes with their padding. -/
def padded (frames : List Subframe) : List UInt8 :=
  frames.flatMap fun frame => frame.encode ++ frame.padding

theorem encodeAmsdu_concat (front : List Subframe) (last : Subframe) :
    encodeAmsdu false (front ++ [last]) = padded front ++ last.encode := by
  induction front with
  | nil => simp [encodeAmsdu, padded]
  | cons frame rest induction =>
    have next : ∃ second others, rest ++ [last] = second :: others := by
      cases rest with
      | nil => exact ⟨last, [], rfl⟩
      | cons second others => exact ⟨second, others ++ [last], rfl⟩
    obtain ⟨second, others, shape⟩ := next
    rw [List.cons_append, shape, encodeAmsdu, ← shape, induction]
    simp [padded]

theorem padded_concat (front : List Subframe) (last : Subframe) :
    padded (front ++ [last]) = padded front ++ last.encode ++ last.padding := by
  simp [padded]

theorem padded_aligned (frames : List Subframe) : (padded frames).length % 4 = 0 := by
  induction frames with
  | nil => rfl
  | cons frame rest induction =>
    have size : (padded (frame :: rest)).length =
        frame.body.length + 22 + frame.padding.length + (padded rest).length := by
      simp [padded, frame.encode_length, Nat.add_assoc]
    have aligned := frame.aligned
    simp only [etherHeaderLen, llcSnapframelen] at aligned
    omega

end Encode

section Small

/-- An MSDU that is short enough for an A-MSDU. -/
def Skb.Small (skb : Skb) : Prop := skb.framelen ≤ amsduMaxSubfrmLen

variable {skb : Skb}

theorem Skb.framelen_eq (skb : Skb) : skb.framelen = roundup (skb.msdu.body.length + 22) 4 := by
  simp only [Skb.framelen, subframeTotalLen, Skb.pktlen, etherHeaderLen, llcSnapframelen,
    Nat.add_assoc]

theorem Skb.Small.fits (small : skb.Small) :
    skb.msdu.body.length + llcSnapframelen < 65536 := by
  rw [Skb.Small, skb.framelen_eq, roundup, amsduMaxSubfrmLen] at small
  simp only [llcSnapframelen]
  omega

/-- The subframe of an MSDU, with the bytes it is padded with. -/
def Skb.subframe (skb : Skb) (small : skb.Small) (padding : List UInt8)
    (aligned : padding.length =
      (4 - (etherHeaderLen + llcSnapframelen + skb.msdu.body.length) % 4) % 4) : Subframe where
  dst := skb.msdu.dst
  src := skb.msdu.src
  orgCode := ⟨[0, 0, 0], rfl⟩
  etherType := skb.msdu.etherType
  body := skb.msdu.body
  fits := small.fits
  padding := padding
  aligned := aligned

/-- A subframe that carries an MSDU. -/
def Carries (frame : Subframe) (skb : Skb) : Prop :=
  frame.unwrapped = skb.ethernet ∧ frame.body = skb.msdu.body ∧ ∀ before : List UInt8,
    before ++ frame.encode = before ++ skb.msdu.dst.1 ++ skb.msdu.src.1 ++
      Mac.htons (skb.pktlen + llcSnapframelen - etherHeaderLen) ++ Mac.llcSnap ++
      skb.msdu.etherType.1 ++ skb.msdu.body

theorem Skb.subframe_carries (small : skb.Small) (padding : List UInt8)
    (aligned : padding.length =
      (4 - (etherHeaderLen + llcSnapframelen + skb.msdu.body.length) % 4) % 4) :
    Carries (skb.subframe small padding aligned) skb := by
  refine ⟨?_, rfl, ?_⟩
  · simp [Subframe.unwrapped, Skb.subframe, Skb.ethernet, Skb.etherHeader]
  · intro before
    have same : skb.pktlen + llcSnapframelen - etherHeaderLen =
        skb.msdu.body.length + llcSnapframelen := by
      simp only [Skb.pktlen, llcSnapframelen, etherHeaderLen]
      omega
    rw [same]
    simp [Subframe.encode, Subframe.llc, Skb.subframe, Mac.llcSnap]

/-- The same subframe with other bytes for its padding. -/
theorem Carries.repad {frame : Subframe} (carries : Carries frame skb) (small : skb.Small)
    (padding : List UInt8) (size : padding.length = frame.padding.length) :
    ∃ other, Carries other skb ∧ other.encode = frame.encode ∧ other.padding = padding := by
  have aligned := frame.aligned
  rw [carries.2.1, ← size] at aligned
  refine ⟨skb.subframe small padding aligned, skb.subframe_carries small padding aligned, ?_, rfl⟩
  have new := (skb.subframe_carries small padding aligned).2.2 []
  rwa [← carries.2.2 []] at new

theorem Skb.Small.carried (small : skb.Small) : ∃ frame, Carries frame skb :=
  ⟨_, skb.subframe_carries small (List.replicate
    ((4 - (etherHeaderLen + llcSnapframelen + skb.msdu.body.length) % 4) % 4) 0)
      (List.length_replicate ..)⟩

end Small

section Aggregate

variable {stale : Nat → UInt8} {skb final : Skb} {before : List Skb} {data : List UInt8}

/-- A header of 14 bytes, and the subframes of some MSDUs; the last one is not padded. -/
def Built (data : List UInt8) (before : List Skb) (final : Skb) : Prop :=
  ∃ (etherHeader : List UInt8) (front : List Subframe) (last : Subframe),
    etherHeader.length = 14 ∧ data = etherHeader ++ encodeAmsdu false (front ++ [last]) ∧
      List.Forall₂ Carries front before ∧ Carries last final

private theorem encap_first (stale : Nat → UInt8) (small : skb.Small) :
    Built (wifiMacAmsduEncap stale [] skb true) [] skb := by
  obtain ⟨frame, carries⟩ := small.carried
  refine ⟨skb.etherHeader, [], frame, ?_, ?_, .nil, carries⟩
  · simp [Skb.etherHeader, skb.msdu.dst.2, skb.msdu.src.2, skb.msdu.etherType.2]
  · rw [encodeAmsdu_concat, padded, List.flatMap_nil, List.nil_append, carries.2.2]
    simp [wifiMacAmsduEncap]

/-- The bytes that `wifi_mac_amsdu_encap` adds before a further MSDU are those that the last
subframe is padded with. -/
theorem padlen_eq {front : List Subframe} {last : Subframe} {length : Nat}
    (size : length = (encodeAmsdu false (front ++ [last])).length) :
    roundup length 4 - length = last.padding.length := by
  have aligned := padded_aligned front
  have own := last.aligned
  rw [encodeAmsdu_concat, List.length_append, last.encode_length] at size
  simp only [etherHeaderLen, llcSnapframelen] at own
  simp only [roundup]
  omega

private theorem encap_next (stale : Nat → UInt8) (built : Built data before final)
    (finalSmall : final.Small) (small : skb.Small) :
    Built (wifiMacAmsduEncap stale data skb false) (before ++ [final]) skb := by
  obtain ⟨etherHeader, front, last, header_size, shape, carried, lastCarries⟩ := built
  obtain ⟨next, nextCarries⟩ := small.carried
  obtain ⟨pad, pad_eq⟩ : ∃ pad, pad = (List.range last.padding.length).map
      fun place => stale (data.length + place) := ⟨_, rfl⟩
  obtain ⟨filled, filledCarries, same, padding_eq⟩ :=
    lastCarries.repad finalSmall pad (by rw [pad_eq]; simp)
  have size : data.length - etherHeaderLen = (encodeAmsdu false (front ++ [last])).length := by
    rw [shape, List.length_append, header_size]
    simp only [etherHeaderLen]
    omega
  have added : wifiMacAmsduEncap stale data skb false = data ++ pad ++ next.encode := by
    rw [nextCarries.2.2, pad_eq, ← padlen_eq size]
    simp [wifiMacAmsduEncap]
  refine ⟨etherHeader, front ++ [filled], next, header_size, ?_, ?_, nextCarries⟩
  · rw [added, shape, encodeAmsdu_concat, encodeAmsdu_concat, padded_concat, same, padding_eq]
    simp only [List.append_assoc]
  · exact List.rel_append carried (.cons filledCarries .nil)

/-- What the loop of `wifi_mac_amsdu_aggr` makes of the MSDUs. -/
theorem encap_all (stale : Nat → UInt8) (rest : List Skb) (built : Built data before final)
    (finalSmall : final.Small) (smalls : ∀ skb ∈ rest, skb.Small) :
    ∃ front last, before ++ final :: rest = front ++ [last] ∧
      Built (rest.foldl (fun data skb => wifiMacAmsduEncap stale data skb false) data)
        front last := by
  induction rest generalizing data before final with
  | nil => exact ⟨before, final, rfl, built⟩
  | cons skb others induction =>
    have small := smalls skb (.head _)
    obtain ⟨front, last, same, whole⟩ :=
      induction (encap_next stale built finalSmall small) small
        (fun other listed => smalls other (.tail _ listed))
    refine ⟨front, last, ?_, whole⟩
    rw [← same, List.append_assoc]
    rfl

theorem aggrData_built (stale : Nat → UInt8) {skbs : List Skb} (nonempty : skbs ≠ [])
    (smalls : ∀ skb ∈ skbs, skb.Small) :
    ∃ front last, skbs = front ++ [last] ∧ Built (aggrData stale skbs) front last := by
  cases skbs with
  | nil => exact absurd rfl nonempty
  | cons first rest =>
    have small := smalls first (.head _)
    exact encap_all stale rest (encap_first stale small) small
      (fun other listed => smalls other (.tail _ listed))

/-- The receive side splits the A-MSDU into the MSDUs that were copied to it. -/
theorem aggrData_split (stale : Nat → UInt8) (key : Key) (infos : List PktInfo) {skbs : List Skb}
    (nonempty : skbs ≠ []) (smalls : ∀ skb ∈ skbs, skb.Small) :
    (TxBuf.amsdu key skbs (aggrData stale skbs) infos).split = skbs.map Skb.ethernet := by
  obtain ⟨front, last, rfl, etherHeader, frames, final, size, shape, carried, carries⟩ :=
    aggrData_built stale nonempty smalls
  obtain ⟨data, data_eq⟩ : ∃ data, data = aggrData stale (front ++ [last]) := ⟨_, rfl⟩
  rw [← data_eq] at shape ⊢
  have whole : List.Forall₂ Carries (frames ++ [final]) (front ++ [last]) :=
    List.rel_append carried (.cons carries .nil)
  have same : (frames ++ [final]).map Subframe.unwrapped = (front ++ [last]).map Skb.ethernet :=
    by
      rw [← List.forall₂_eq_eq_eq, List.forall₂_map_left_iff, List.forall₂_map_right_iff]
      exact whole.imp fun _ _ carries => carries.1
  have nothing : ∀ skb ∈ ([] : List Mac.SkbView), skb.data + skb.len ≤ etherHeader.length := nofun
  have enough : (encodeAmsdu false (frames ++ [final])).length ≤
      (encodeAmsdu false (frames ++ [final])).length := Nat.le_refl _
  obtain ⟨delivered, -⟩ := amsduLoop_frames ⟨true, true, fun _ => true⟩ 0 false
    (frames ++ [final]) nothing enough
  have walked := delivered fun _ _ => rfl
  have total : data.length = 14 + (encodeAmsdu false (frames ++ [final])).length := by
    rw [shape, List.length_append, size]
  have long : ¬ data.length < etherHeaderLen := by
    simp only [etherHeaderLen]
    omega
  have left : data.length - etherHeaderLen = (encodeAmsdu false (frames ++ [final])).length := by
    simp only [etherHeaderLen]
    omega
  rw [TxBuf.split, Mac.wifiMacAmsduInput, if_neg long]
  simp only [Mac.osSkbPull, if_neg long, Option.getD_some, left]
  rw [Mac.splitAt, size] at walked
  rw [shape]
  simpa [same] using walked

private theorem padded_length {frames : List Subframe} {skbs : List Skb}
    (whole : List.Forall₂ Carries frames skbs) :
    (padded frames).length = (skbs.map Skb.framelen).sum := by
  induction whole with
  | nil => rfl
  | @cons frame skb rest others carries _ induction =>
    have own := frame.roundup_eq
    rw [carries.2.1, ← skb.framelen_eq, ← carries.2.1] at own
    simp only [padded, List.flatMap_cons, List.length_append, frame.encode_length,
      List.map_cons, List.sum_cons] at induction ⊢
    omega

/-- The A-MSDU is no longer than the header and what its MSDUs count for. -/
theorem aggrData_length (stale : Nat → UInt8) {skbs : List Skb} (nonempty : skbs ≠ [])
    (smalls : ∀ skb ∈ skbs, skb.Small) :
    (aggrData stale skbs).length ≤ (skbs.map Skb.framelen).sum + etherHeaderLen := by
  obtain ⟨front, last, rfl, etherHeader, frames, final, size, shape, carried, carries⟩ :=
    aggrData_built stale nonempty smalls
  have before := padded_length carried
  have own := final.roundup_eq
  rw [carries.2.1, ← last.framelen_eq, ← carries.2.1] at own
  rw [shape, encodeAmsdu_concat, List.map_append, List.sum_append]
  simp only [List.length_append, final.encode_length, List.map_cons, List.map_nil,
    List.sum_cons, List.sum_nil, size, before, etherHeaderLen]
  omega

theorem aggrInfos_length (skbs : List Skb) : (aggrInfos skbs).length = skbs.length := by
  have copied : ∀ (infos : List PktInfo) (info : PktInfo),
      (copyPktInfo infos info).length = infos.length + 1 := by
    intro infos info
    cases infos with
    | nil => rfl
    | cons first rest => simp [copyPktInfo]
  have all : ∀ (skbs : List Skb) (infos : List PktInfo),
      (skbs.foldl (fun infos skb => copyPktInfo infos skb.msdu.pktInfo) infos).length =
        infos.length + skbs.length := by
    intro skbs
    induction skbs with
    | nil => exact fun _ => rfl
    | cons skb rest induction =>
      intro infos
      rw [List.foldl_cons, induction, copied, List.length_cons]
      omega
  rw [aggrInfos, all, List.length_nil, Nat.zero_add]

end Aggregate

end W522a.TxAmsdu
