import Rdd2.PackedStruct
import Rdd2.SerialRoundTrip
import Rdd2.SerialSequence

/-!
# Injecting a fix

The way of a GNSS fix from the ground station into the vehicle:
`tools/synapse_serial/synapse_serial.py` packs it into the 64 bytes of
`GnssFixData` and frames them (`cmd_send_gnss`), the radio drops what it drops, and
the firmware's `rx_byte` publishes what is left.

`GnssFix` is the dataclass of the ground station, whose fields are integers of any
size; what does not fit its field is refused when it is packed. The layout loses
nothing either way (`gnss_fix_round_trip`). On the vehicle every fix whose frame
came through is published once, in order, as it was sent, and what is counted is
how many came through and between how many of them others are missing
(`injected_fixes_published`).
-/

namespace Rdd2

open PackedStruct Succession

/-! ## The fix and its layout -/

/-- `class GnssFix` -/
structure GnssFix where
  timestampUs : Int := 0
  timeUnixUs : Int := 0
  latitudeDegE7 : Int := 0
  longitudeDegE7 : Int := 0
  altitudeMslMm : Int := 0
  altitudeEllipsoidMm : Int := 0
  horizontalAccuracyMm : Int := 0
  verticalAccuracyMm : Int := 0
  velocityAccuracyMmS : Int := 0
  yawAccuracyCdeg : Int := 0
  hdopCenti : Int := 0
  vdopCenti : Int := 0
  groundSpeedCmS : Int := 0
  courseOverGroundCdeg : Int := 0
  yawCdeg : Int := 0
  velocityUpCmS : Int := 0
  flags : Int := 0
  fixType : Int := 3
  satellitesUsed : Int := 0
  satellitesVisible : Int := 0
  id : Int := 0
  deriving DecidableEq, Repr

/-- `GNSS_FIX_STRUCT`: `<QQiiiiHHHHHHHHHhBBBBB7x` -/
def gnssFixStruct : List Code :=
  [.unsigned 8, .unsigned 8, .signed 4, .signed 4, .signed 4, .signed 4,
    .unsigned 2, .unsigned 2, .unsigned 2, .unsigned 2, .unsigned 2, .unsigned 2,
    .unsigned 2, .unsigned 2, .unsigned 2, .signed 2,
    .unsigned 1, .unsigned 1, .unsigned 1, .unsigned 1, .unsigned 1, .pad 7]

def GnssFix.fields (fix : GnssFix) : List Int :=
  [fix.timestampUs, fix.timeUnixUs, fix.latitudeDegE7, fix.longitudeDegE7, fix.altitudeMslMm,
    fix.altitudeEllipsoidMm, fix.horizontalAccuracyMm, fix.verticalAccuracyMm,
    fix.velocityAccuracyMmS, fix.yawAccuracyCdeg, fix.hdopCenti, fix.vdopCenti,
    fix.groundSpeedCmS, fix.courseOverGroundCdeg, fix.yawCdeg, fix.velocityUpCmS, fix.flags,
    fix.fixType, fix.satellitesUsed, fix.satellitesVisible, fix.id]

/-- The class called with as many arguments as it has fields. -/
def GnssFix.ofFields : List Int → Option GnssFix
  | [ts, time, lat, lon, msl, ell, hacc, vacc, sacc, yacc, hdop, vdop, speed, course, yaw, up,
      flags, fixType, used, visible, id] =>
      some ⟨ts, time, lat, lon, msl, ell, hacc, vacc, sacc, yacc, hdop, vdop, speed, course, yaw, up,
        flags, fixType, used, visible, id⟩
  | _ => none

/-- `GnssFix.pack`; `none` is a `struct.error`. -/
def GnssFix.pack (fix : GnssFix) : Option (List UInt8) := PackedStruct.pack gnssFixStruct fix.fields

def GnssFix.unpack (payload : List UInt8) : Option GnssFix :=
  (PackedStruct.unpack gnssFixStruct payload).bind GnssFix.ofFields

/-- Every field fits the integer of the layout that it becomes. -/
structure GnssFix.InRange (fix : GnssFix) : Prop where
  timestampUs : 0 ≤ fix.timestampUs ∧ fix.timestampUs < 2 ^ 64
  timeUnixUs : 0 ≤ fix.timeUnixUs ∧ fix.timeUnixUs < 2 ^ 64
  latitudeDegE7 : -2 ^ 31 ≤ fix.latitudeDegE7 ∧ fix.latitudeDegE7 < 2 ^ 31
  longitudeDegE7 : -2 ^ 31 ≤ fix.longitudeDegE7 ∧ fix.longitudeDegE7 < 2 ^ 31
  altitudeMslMm : -2 ^ 31 ≤ fix.altitudeMslMm ∧ fix.altitudeMslMm < 2 ^ 31
  altitudeEllipsoidMm : -2 ^ 31 ≤ fix.altitudeEllipsoidMm ∧ fix.altitudeEllipsoidMm < 2 ^ 31
  horizontalAccuracyMm : 0 ≤ fix.horizontalAccuracyMm ∧ fix.horizontalAccuracyMm < 2 ^ 16
  verticalAccuracyMm : 0 ≤ fix.verticalAccuracyMm ∧ fix.verticalAccuracyMm < 2 ^ 16
  velocityAccuracyMmS : 0 ≤ fix.velocityAccuracyMmS ∧ fix.velocityAccuracyMmS < 2 ^ 16
  yawAccuracyCdeg : 0 ≤ fix.yawAccuracyCdeg ∧ fix.yawAccuracyCdeg < 2 ^ 16
  hdopCenti : 0 ≤ fix.hdopCenti ∧ fix.hdopCenti < 2 ^ 16
  vdopCenti : 0 ≤ fix.vdopCenti ∧ fix.vdopCenti < 2 ^ 16
  groundSpeedCmS : 0 ≤ fix.groundSpeedCmS ∧ fix.groundSpeedCmS < 2 ^ 16
  courseOverGroundCdeg : 0 ≤ fix.courseOverGroundCdeg ∧ fix.courseOverGroundCdeg < 2 ^ 16
  yawCdeg : 0 ≤ fix.yawCdeg ∧ fix.yawCdeg < 2 ^ 16
  velocityUpCmS : -2 ^ 15 ≤ fix.velocityUpCmS ∧ fix.velocityUpCmS < 2 ^ 15
  flags : 0 ≤ fix.flags ∧ fix.flags < 2 ^ 8
  fixType : 0 ≤ fix.fixType ∧ fix.fixType < 2 ^ 8
  satellitesUsed : 0 ≤ fix.satellitesUsed ∧ fix.satellitesUsed < 2 ^ 8
  satellitesVisible : 0 ≤ fix.satellitesVisible ∧ fix.satellitesVisible < 2 ^ 8
  id : 0 ≤ fix.id ∧ fix.id < 2 ^ 8

theorem GnssFix.pack_isSome {fix : GnssFix} : fix.pack.isSome = true ↔ fix.InRange := by
  have hsigned (n : Nat) (v : Int) : Code.Holds (.signed n) v ↔
      -(256 ^ n : Nat) ≤ 2 * v ∧ 2 * v < (256 ^ n : Nat) := Iff.rfl
  have hunsigned (n : Nat) (v : Int) : Code.Holds (.unsigned n) v ↔
      0 ≤ v ∧ v < (256 ^ n : Nat) := Iff.rfl
  have hcodes : gnssFixStruct.filter (fun c => !c.isPad) = gnssFixStruct.dropLast := rfl
  rw [GnssFix.pack, PackedStruct.pack_isSome, hcodes, gnssFixStruct, GnssFix.fields]
  simp only [List.dropLast, List.forall₂_cons, List.forall₂_nil_right_iff, hsigned, hunsigned,
    and_true]
  constructor
  · intro h
    constructor <;> omega
  · intro h
    obtain ⟨⟩ := h
    omega

theorem GnssFix.fields_of_ofFields {values : List Int} {fix : GnssFix}
    (h : GnssFix.ofFields values = some fix) : fix.fields = values := by
  unfold GnssFix.ofFields at h
  split at h
  · cases h
    rfl
  · cases h

theorem GnssFix.ofFields_isSome {values : List Int} (h : values.length = 21) :
    ∃ fix, GnssFix.ofFields values = some fix := by
  unfold GnssFix.ofFields
  split
  · exact ⟨_, rfl⟩
  · rename_i hnot
    exfalso
    match values, h with
    | [ts, time, lat, lon, msl, ell, hacc, vacc, sacc, yacc, hdop, vdop, speed, course, yaw, up,
        flags, fixType, used, visible, id], _ =>
        exact hnot _ _ _ _ _ _ _ _ _ _ _ _ _ _ _ _ _ _ _ _ _ rfl

theorem GnssFix.unpack_pack {fix : GnssFix} {payload : List UInt8} (h : fix.pack = some payload) :
    GnssFix.unpack payload = some fix ∧ payload.length = 64 := by
  obtain ⟨hunpack, hlen⟩ := PackedStruct.unpack_pack h
  refine ⟨?_, hlen⟩
  rw [GnssFix.unpack, hunpack]
  rfl

/-- Packing and unpacking undo each other: exactly the fixes that fit are packed, and
each is what its 64 bytes unpack to; any 64 bytes, and no other number, unpack to a fix,
and packing that one gives the bytes back but for the seven of padding. -/
theorem gnss_fix_round_trip :
    (∀ fix : GnssFix, fix.pack.isSome = true ↔ fix.InRange) ∧
    (∀ (fix : GnssFix) (payload : List UInt8), fix.pack = some payload →
      GnssFix.unpack payload = some fix ∧ payload.length = 64) ∧
    ∀ payload : List UInt8, (GnssFix.unpack payload).isSome = decide (payload.length = 64) ∧
      ∀ fix, GnssFix.unpack payload = some fix →
        fix.pack = some (payload.take 57 ++ List.replicate 7 0) := by
  refine ⟨fun fix => GnssFix.pack_isSome, fun fix payload h => GnssFix.unpack_pack h,
    fun payload => ⟨?_, fun fix h => ?_⟩⟩
  · by_cases hlen : payload.length = 64
    · obtain ⟨values, hvalues⟩ : ∃ values, PackedStruct.unpack gnssFixStruct payload = some values :=
        Option.isSome_iff_exists.mp (PackedStruct.unpack_isSome.mpr hlen)
      obtain ⟨fix, hfix⟩ := GnssFix.ofFields_isSome (PackedStruct.unpack_length hvalues)
      rw [GnssFix.unpack, hvalues, Option.bind_some, hfix]
      simp [hlen]
    · have hnone : PackedStruct.unpack gnssFixStruct payload = none := by
        rw [← Option.not_isSome_iff_eq_none, PackedStruct.unpack_isSome]
        exact hlen
      rw [GnssFix.unpack, hnone]
      simp [hlen]
  · obtain ⟨values, hvalues, hfields⟩ := Option.bind_eq_some_iff.mp h
    have hlen : payload.length = 64 :=
      PackedStruct.unpack_isSome.mp (Option.isSome_iff_exists.mpr ⟨values, hvalues⟩)
    rw [GnssFix.pack, GnssFix.fields_of_ofFields hfields, PackedStruct.pack_unpack hvalues]
    have hpad : ∀ c ∈ gnssFixStruct.dropLast, c.isPad = false := by decide
    exact congrArg some (zeroPadding_trailing hpad hlen)

/-- The least and the greatest value of a signed field, and a timestamp of eight
bytes. -/
theorem gnss_fix_round_trip_extremes :
    GnssFix.unpack (((GnssFix.mk (2 ^ 64 - 1) 0 (-2 ^ 31) (2 ^ 31 - 1) 0 0 0 0 0 0 0 0 0 0 0 (-2 ^ 15)
      0 3 0 0 0).pack).getD [])
      = some (GnssFix.mk (2 ^ 64 - 1) 0 (-2 ^ 31) (2 ^ 31 - 1) 0 0 0 0 0 0 0 0 0 0 0 (-2 ^ 15)
        0 3 0 0 0) := by
  obtain ⟨payload, hpayload⟩ : ∃ payload, (GnssFix.mk (2 ^ 64 - 1) 0 (-2 ^ 31) (2 ^ 31 - 1) 0 0 0 0
      0 0 0 0 0 0 0 (-2 ^ 15) 0 3 0 0 0).pack = some payload :=
    Option.isSome_iff_exists.mp ((gnss_fix_round_trip.1 _).mpr (by constructor <;> decide))
  rw [hpayload, Option.getD_some]
  exact (gnss_fix_round_trip.2.1 _ payload hpayload).1

/-! ## The ground station -/

def topicGnssFix : UInt16 := 8

/-- What the loop of `cmd_send_gnss` writes for the fixes it makes, `sent` frames
being behind it; `none` where it stops with an error. -/
def sendGnss : Nat → List GnssFix → Option (List (List UInt8))
  | _, [] => some []
  | sent, fix :: fixes => do
      let payload ← fix.pack
      let frame ← encodeFrame topicGnssFix payload (UInt8.ofNat sent)
      let later ← sendGnss (sent + 1) fixes
      some (frame :: later)

/-- The frame of the fix that `sent` others were sent before. -/
def gnssFrame (sent : Nat) (fix : GnssFix) : Frame :=
  ⟨topicGnssFix, UInt8.ofNat sent, fix.pack.getD []⟩

theorem gnssFrame_valid {fix : GnssFix} {payload : List UInt8} (h : fix.pack = some payload)
    {maxPayload : Nat} (hmax : 64 ≤ maxPayload) (sent : Nat) :
    (gnssFrame sent fix).Valid maxPayload := by
  have hlen := (GnssFix.unpack_pack h).2
  simp only [Frame.Valid, gnssFrame, h, Option.getD_some, hlen]
  omega

theorem sendGnss_getElem? {sent : Nat} {fixes : List GnssFix} {frames : List (List UInt8)}
    (h : sendGnss sent fixes = some frames) :
    frames.length = fixes.length ∧
      ∀ (k : Nat) (fix : GnssFix), fixes[k]? = some fix → (∃ payload, fix.pack = some payload) ∧
        frames[k]? = some ((gnssFrame (sent + k) fix).wire 0) := by
  induction fixes generalizing sent frames with
  | nil =>
      cases h
      exact ⟨rfl, fun k fix hk => by cases hk⟩
  | cons fix fixes ih =>
      rw [sendGnss] at h
      obtain ⟨payload, hpayload, h⟩ := Option.bind_eq_some_iff.mp h
      obtain ⟨frame, hframe, h⟩ := Option.bind_eq_some_iff.mp h
      obtain ⟨later, hlater, h⟩ := Option.bind_eq_some_iff.mp h
      cases h
      obtain ⟨hlen, hget⟩ := ih hlater
      refine ⟨congrArg (· + 1) hlen, fun k fix' hk => ?_⟩
      cases k with
      | zero =>
          cases hk
          have hwire := encodeFrame_eq_wire (Nat.le_refl 512)
            (gnssFrame_valid hpayload (by decide) sent)
          have hframe' : encodeFrame topicGnssFix payload (UInt8.ofNat sent) = some frame := hframe
          rw [gnssFrame, hpayload, Option.getD_some] at hwire
          rw [hframe'] at hwire
          refine ⟨⟨payload, hpayload⟩, ?_⟩
          rw [gnssFrame, hpayload, Option.getD_some]
          exact hwire
      | succ k =>
          obtain ⟨hpack, hk'⟩ := hget k fix' hk
          refine ⟨hpack, ?_⟩
          rw [List.getElem?_cons_succ, hk']
          congr 3
          omega

/-! ## The vehicle -/

/-- An inbound topic for the fix: what `topics_resolve` and `publishers_init` make
of the `gnss` entry of a build whose fix comes by radio. -/
structure CarriesGnss (cfg : SerialConfig) (entry : SerialTopic) : Prop where
  found : topicById cfg topicGnssFix = some entry
  rx : entry.rx = true
  pub : entry.pub = true
  size : entry.payloadSize = 64
  fits : 64 ≤ cfg.maxPayload

theorem CarriesGnss.publication {cfg : SerialConfig} {entry : SerialTopic}
    (h : CarriesGnss cfg entry) {fix : GnssFix} {payload : List UInt8}
    (hpayload : fix.pack = some payload) (sent : Nat) :
    publication cfg (gnssFrame sent fix) = some ⟨entry, payload⟩ := by
  have hlen : payload.length = entry.payloadSize := by rw [(GnssFix.unpack_pack hpayload).2, h.size]
  rw [Rdd2.publication, gnssFrame, h.found, hpayload, Option.getD_some]
  simp only
  rw [if_neg (by simp [h.rx, h.pub]), if_neg (by simp [hlen])]

/-- A frame that is published counts as received, and nothing else is counted but
its number. -/
theorem acceptFrame_stats {cfg : SerialConfig} (hok : ∀ n, cfg.pubUpdate n = 0) {f : Frame}
    {publication : Publication} (h : Rdd2.publication cfg f = some publication) (l : RxLink) :
    (acceptFrame cfg l f).stats = { l.stats with
      rxFrames := l.stats.rxFrames + 1
      rxSeqGaps := (acceptFrame cfg l f).stats.rxSeqGaps } := by
  have htrack : ∀ l : RxLink, (rxTrackSequence f.seq l).stats = { l.stats with
      rxSeqGaps := (rxTrackSequence f.seq l).stats.rxSeqGaps } := by
    intro l
    simp only [rxTrackSequence]
    split <;> rfl
  unfold Rdd2.publication at h
  unfold acceptFrame rxDeliver
  split at h
  · cases h
  · rename_i entry hentry
    split at h
    · cases h
    · rename_i hopen
      split at h
      · cases h
      · rename_i hlen
        simp only [hentry]
        rw [if_neg hopen, if_neg (fun hne => hlen hne), if_neg (by simp [hok])]
        simp only
        rw [htrack]

theorem foldl_acceptFrame_stats {cfg : SerialConfig} (hok : ∀ n, cfg.pubUpdate n = 0)
    {fs : List Frame} (h : ∀ f ∈ fs, ∃ p, publication cfg f = some p) (l : RxLink) :
    (fs.foldl (acceptFrame cfg) l).stats = { l.stats with
      rxFrames := l.stats.rxFrames + UInt32.ofNat fs.length
      rxSeqGaps := (fs.foldl (acceptFrame cfg) l).stats.rxSeqGaps } := by
  induction fs generalizing l with
  | nil => simp
  | cons f fs ih =>
      obtain ⟨p, hp⟩ := h f List.mem_cons_self
      rw [List.foldl_cons, ih (fun g hg => h g (List.mem_cons_of_mem f hg))]
      rw [acceptFrame_stats hok hp l, List.length_cons, UInt32.ofNat_add,
        UInt32.add_comm (UInt32.ofNat fs.length) (UInt32.ofNat 1), UInt32.add_assoc]
      rfl

theorem nextSeq_ofNat (i j : Nat) :
    NextSeq (UInt8.ofNat i) (UInt8.ofNat j) ↔ j % 256 = (i + 1) % 256 := by
  rw [NextSeq, ← UInt8.toNat_inj, UInt8.toNat_add, UInt8.toNat_ofNat', UInt8.toNat_ofNat']
  simp

/-- The frames that came through of a numbered stream of fixes are published, once and in
order, and nothing else is counted than how many they are, and the places where the
numbers do not go on. -/
theorem gnssFrames_published {cfg : SerialConfig} {entry : SerialTopic}
    (hcarries : CarriesGnss cfg entry) (hok : ∀ n, cfg.pubUpdate n = 0) (fix : Nat → GnssFix)
    (arrived : List Nat) (hpack : ∀ k ∈ arrived, ∃ payload, (fix k).pack = some payload) :
    let link := (rxFeed cfg (rxInit cfg)
      (arrived.flatMap fun k => (gnssFrame k (fix k)).wire 0)).link
    link.log.published.map (fun p => (p.entry, GnssFix.unpack p.msg))
        = arrived.map (fun k => (entry, some (fix k))) ∧
      link.stats = { rxFrames := UInt32.ofNat arrived.length
                     rxSeqGaps := UInt32.ofNat
                      (breaks (fun i j => j % 256 = (i + 1) % 256) arrived) } := by
  intro link
  let frame : Nat → Frame := fun k => gnssFrame k (fix k)
  have hpublication : ∀ k ∈ arrived, ∃ payload, (fix k).pack = some payload ∧
      publication cfg (frame k) = some ⟨entry, payload⟩ := by
    intro k hk
    obtain ⟨payload, hpayload⟩ := hpack k hk
    exact ⟨payload, hpayload, hcarries.publication hpayload k⟩
  have hwhole : List.Forall₂ (Rescan.Whole (recogniser cfg.maxPayload)) (arrived.map frame)
      (arrived.map fun k => (frame k).wire 0) := by
    rw [List.forall₂_map_left_iff, List.forall₂_map_right_iff, List.forall₂_same]
    intro k hk
    obtain ⟨payload, hpayload⟩ := hpack k hk
    exact whole_wire cfg.maxPayload_le (gnssFrame_valid hpayload hcarries.fits k) 0
  have hidle : (rxInit cfg).Idle cfg := ⟨(rxInit_wf cfg).1, rfl, rfl⟩
  have hafter := (rxFeed_whole hidle hwhole).2
  rw [← List.flatMap_def] at hafter
  have hdelivered : link.log.delivered = arrived.map frame := by
    rw [hafter.delivered_eq]
    rfl
  refine ⟨?_, ?_⟩
  · rw [hafter.published_eq, List.filterMap_map]
    simp only [rxInit, List.nil_append]
    rw [List.map_filterMap, ← List.filterMap_eq_map']
    refine List.filterMap_congr fun k hk => ?_
    obtain ⟨payload, hpayload, hp⟩ := hpublication k hk
    rw [Function.comp_apply, hp, Option.map_some, (GnssFix.unpack_pack hpayload).1]
  · have hall : ∀ f ∈ arrived.map frame, ∃ p, publication cfg f = some p := by
      intro f hf
      obtain ⟨k, hk, rfl⟩ := List.mem_map.mp hf
      obtain ⟨payload, -, hp⟩ := hpublication k hk
      exact ⟨_, hp⟩
    have hstats := foldl_acceptFrame_stats hok hall (rxInit cfg).link
    rw [← hafter.of_clean rfl rfl] at hstats
    have hgaps : link.stats.rxSeqGaps = UInt32.ofNat
        (breaks (fun i j => j % 256 = (i + 1) % 256) arrived) := by
      rw [(rxFeed_sequence cfg (rxInit_sequence cfg) _).rxSeqGaps_eq, hdelivered, List.map_map,
        breaks_map]
      exact congrArg UInt32.ofNat (breaks_congr (fun i j => nextSeq_ofNat i j) arrived)
    rw [hstats, hgaps, List.length_map]
    simp [rxInit]

/-- A gap is counted only where a number is missing. -/
theorem gaps_add_length_le {arrived : List Nat} (horder : arrived.Pairwise (· < ·)) {n : Nat}
    (hsent : ∀ k ∈ arrived, k < n) :
    breaks (fun i j => j % 256 = (i + 1) % 256) arrived + arrived.length ≤ n := by
  cases arrived with
  | nil => exact Nat.zero_le _
  | cons first later =>
      have hmissing := breaks_le_missing 256 horder
      have hlast := hsent _ (List.getLast_mem (List.cons_ne_nil first later))
      omega

/-- Every fix whose frame came through is published, once and in order, as it was
packed: nothing else is counted than how many they are, and the places where the
numbers do not go on. These, and the frames that came through, are no more than
were sent. -/
theorem injected_fixes_published (cfg : SerialConfig) (entry : SerialTopic)
    (hcarries : CarriesGnss cfg entry) (hok : ∀ n, cfg.pubUpdate n = 0) (fixes : List GnssFix)
    (frames : List (List UInt8)) (hsend : sendGnss 0 fixes = some frames) (arrived : List Nat)
    (horder : arrived.Pairwise (· < ·)) (hsent : ∀ k ∈ arrived, k < fixes.length) :
    let link := (rxFeed cfg (rxInit cfg) (arrived.flatMap fun k => frames.getD k [])).link
    let gaps := breaks (fun i j => j % 256 = (i + 1) % 256) arrived
    link.log.published.map (fun p => (p.entry, GnssFix.unpack p.msg))
        = arrived.map (fun k => (entry, fixes[k]?)) ∧
      link.stats = { rxFrames := UInt32.ofNat arrived.length, rxSeqGaps := UInt32.ofNat gaps } ∧
      gaps + arrived.length ≤ fixes.length := by
  intro link gaps
  obtain ⟨-, hget⟩ := sendGnss_getElem? hsend
  have hfix : ∀ k ∈ arrived, fixes[k]? = some (fixes.getD k {}) := by
    intro k hk
    rw [List.getD_eq_getElem?_getD, List.getElem?_eq_getElem (hsent k hk), Option.getD_some]
  have hwire : (arrived.flatMap fun k => frames.getD k [])
      = arrived.flatMap fun k => (gnssFrame k (fixes.getD k {})).wire 0 := by
    refine List.flatMap_congr fun k hk => ?_
    rw [List.getD_eq_getElem?_getD, (hget k _ (hfix k hk)).2, Option.getD_some, Nat.zero_add]
  obtain ⟨hpublished, hstats⟩ := gnssFrames_published hcarries hok (fun k => fixes.getD k {})
    arrived fun k hk => (hget k _ (hfix k hk)).1
  rw [← hwire] at hpublished hstats
  refine ⟨?_, hstats, gaps_add_length_le horder hsent⟩
  rw [hpublished]
  exact List.map_congr_left fun k hk => by rw [hfix k hk]

/-- The second of three fixes is lost. -/
theorem injected_fixes_published_one_lost :
    let fixes : List GnssFix := [{ id := 1 }, { id := 2 }, { id := 3 }]
    ∃ frames, sendGnss 0 fixes = some frames ∧
      (rxFeed .mocap (rxInit .mocap) ([0, 2].flatMap fun k => frames.getD k [])).link.stats
        = { rxFrames := 2, rxSeqGaps := 1 } := by
  intro fixes
  obtain ⟨frames, hsend⟩ : ∃ frames, sendGnss 0 fixes = some frames :=
    Option.isSome_iff_exists.mp (by decide +kernel)
  exact ⟨frames, hsend, (injected_fixes_published .mocap ⟨"gnss", true, true, true, 8, 64⟩
    ⟨by decide, rfl, rfl, rfl, by decide⟩ (fun _ => rfl) fixes frames hsend [0, 2] (by decide)
    (by decide)).2.1⟩

end Rdd2
