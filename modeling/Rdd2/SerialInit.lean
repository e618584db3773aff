import Rdd2.GnssInjection

/-!
# Bringing the link up

`zros_serial_init` of `subsys/zros_serial/zros_serial.c`, with `topics_resolve` and
`publishers_init`: the table of topics is bound to the catalog entry by entry, the
inbound topics get their publishers, and only then is the interrupt enabled and the
thread created. The catalog, the UART and ZROS are what the code asks of them.

The link comes up exactly when nothing was found wrong, and then every topic of its
table is one both ends agree on (`zros_serial_init_ready_iff`); otherwise no step
was taken after the one that failed.
-/

namespace Rdd2

/-! ## The environment -/

/-- `synapse_topic_info_t` -/
structure TopicInfo where
  id : UInt16
  fixedLayout : Bool
  payloadSize : Nat
  deriving DecidableEq, Repr

/-- An entry of `g_topics`, with the size of the struct behind `topic`. -/
structure TopicEntry extends SerialTopic where
  busSize : Nat
  deriving DecidableEq, Repr

/-- The codes `zros_serial_init` returns, zero aside. -/
inductive InitError where
  | enodev
  | enoent
  | einval
  | emsgsize
  /-- What `zros_pub_init` or the UART driver returned. -/
  | other (rc : Int)
  deriving DecidableEq, Repr

structure InitEnv where
  maxPayload : Nat
  maxPayload_le : maxPayload ≤ 512
  deviceReady : Bool
  synapseTopicByKey : String → Option TopicInfo
  zrosPubInit : String → Int
  callbackSet : Int

inductive InitEffect where
  | nodeInit
  | pubInit (key : String)
  | ringsInit
  | callbackSet
  | rxEnable
  | threadCreate
  deriving DecidableEq, Repr

structure SerialGlobals where
  topics : List TopicEntry
  ready : Bool := false
  initRc : Option InitError := none
  effects : List InitEffect := []
  deriving DecidableEq, Repr

/-! ## The code -/

/-- What is wrong with an entry, if anything; the three tests of `topics_resolve`
in their order. -/
def resolveError (env : InitEnv) (entry : TopicEntry) : Option InitError :=
  match env.synapseTopicByKey entry.key with
  | none => some .enoent
  | some info =>
      if info.fixedLayout = false then some .enoent
      else if info.payloadSize ≠ entry.busSize then some .einval
      else if env.maxPayload < info.payloadSize then some .emsgsize
      else none

def bindEntry (env : InitEnv) (entry : TopicEntry) : TopicEntry :=
  match env.synapseTopicByKey entry.key with
  | none => entry
  | some info =>
      { entry with id := info.id, payloadSize := (UInt16.ofNat info.payloadSize).toNat }

/-- The table as `topics_resolve` leaves it, and what it returns. -/
def topicsResolve (env : InitEnv) : List TopicEntry → List TopicEntry × Option InitError
  | [] => ([], none)
  | entry :: rest =>
      match resolveError env entry with
      | some rc => (entry :: rest, some rc)
      | none =>
          let (later, rc) := topicsResolve env rest
          (bindEntry env entry :: later, rc)

/-- The loop of `publishers_init`; `any` is its local of that name. -/
def publishersInitFrom (env : InitEnv) (any : Bool) (effects : List InitEffect) :
    List TopicEntry → List InitEffect × Option InitError
  | [] => (effects, none)
  | entry :: rest =>
      if entry.rx = false then publishersInitFrom env any effects rest
      else
        let effects := if any then effects else effects ++ [.nodeInit]
        let effects := effects ++ [.pubInit entry.key]
        if env.zrosPubInit entry.key ≠ 0 then
          (effects, some (.other (env.zrosPubInit entry.key)))
        else publishersInitFrom env true effects rest

def publishersInit (env : InitEnv) (topics : List TopicEntry) :
    List InitEffect × Option InitError :=
  publishersInitFrom env false [] topics

def zrosSerialInit (env : InitEnv) (s : SerialGlobals) : SerialGlobals × Option InitError :=
  if env.deviceReady = false then ({ s with initRc := some .enodev }, some .enodev)
  else
    let (topics, rc) := topicsResolve env s.topics
    let s := { s with topics := topics }
    match rc with
    | some rc => ({ s with initRc := some rc }, some rc)
    | none =>
        let (effects, rc) := publishersInit env s.topics
        let s := { s with effects := s.effects ++ effects }
        match rc with
        | some rc => ({ s with initRc := some rc }, some rc)
        | none =>
            let s := { s with effects := s.effects ++ [InitEffect.ringsInit, .callbackSet] }
            if env.callbackSet ≠ 0 then
              ({ s with initRc := some (.other env.callbackSet) }, some (.other env.callbackSet))
            else
              ({ s with
                  effects := s.effects ++ [InitEffect.rxEnable, .threadCreate], ready := true },
                none)

/-! ## The table -/

/-- Both ends agree on the entry: it is a fixed-layout topic of the catalog, as
large as the local struct, and fits a frame. -/
structure Agreed (env : InitEnv) (entry : TopicEntry) (info : TopicInfo) : Prop where
  found : env.synapseTopicByKey entry.key = some info
  fixedLayout : info.fixedLayout = true
  size : info.payloadSize = entry.busSize
  fits : info.payloadSize ≤ env.maxPayload

theorem resolveError_eq_none {env : InitEnv} {entry : TopicEntry} :
    resolveError env entry = none ↔ ∃ info, Agreed env entry info := by
  unfold resolveError
  constructor
  · intro h
    split at h
    · cases h
    · rename_i info hinfo
      split at h
      · cases h
      · rename_i hfixed
        split at h
        · cases h
        · rename_i hsize
          split at h
          · cases h
          · rename_i hfits
            exact ⟨info, hinfo, by simpa using hfixed, not_not.mp hsize, Nat.le_of_not_lt hfits⟩
  · rintro ⟨info, h⟩
    rw [h.found]
    simp only
    rw [if_neg (by simp [h.fixedLayout]), if_neg (not_not.mpr h.size),
      if_neg (Nat.not_lt.mpr h.fits)]

/-- The cast to 16 bits keeps the size. -/
theorem Agreed.bindEntry_eq {env : InitEnv} {entry : TopicEntry} {info : TopicInfo}
    (h : Agreed env entry info) :
    bindEntry env entry = { entry with id := info.id, payloadSize := entry.busSize } := by
  have hword : (UInt16.ofNat info.payloadSize).toNat = entry.busSize := by
    have hfits := h.fits
    have hmax := env.maxPayload_le
    rw [UInt16.toNat_ofNat', Nat.mod_eq_of_lt (by omega), h.size]
  rw [bindEntry, h.found]
  simp only [hword]

/-- `topics_resolve` stops at the first entry that the ends do not agree on. -/
theorem topicsResolve_cases (env : InitEnv) (topics : List TopicEntry) :
    (topicsResolve env topics = (topics.map (bindEntry env), none) ∧
        ∀ entry ∈ topics, resolveError env entry = none) ∨
      ∃ front entry back rc, topics = front ++ entry :: back ∧
        (∀ e ∈ front, resolveError env e = none) ∧ resolveError env entry = some rc ∧
        topicsResolve env topics = (front.map (bindEntry env) ++ entry :: back, some rc) := by
  induction topics with
  | nil => exact Or.inl ⟨rfl, fun entry h => by cases h⟩
  | cons entry rest ih =>
      cases herror : resolveError env entry with
      | some rc =>
          refine Or.inr ⟨[], entry, rest, rc, rfl, fun e h => (by cases h), herror, ?_⟩
          rw [topicsResolve, herror]
          rfl
      | none =>
          rcases ih with ⟨hrest, hall⟩ | ⟨front, bad, back, rc, rfl, hfront, hbad, hrest⟩
          · refine Or.inl ⟨?_, List.forall_mem_cons.mpr ⟨herror, hall⟩⟩
            rw [topicsResolve, herror, hrest]
            rfl
          · refine Or.inr ⟨entry :: front, bad, back, rc, rfl,
              List.forall_mem_cons.mpr ⟨herror, hfront⟩, hbad, ?_⟩
            rw [topicsResolve, herror, hrest]
            rfl

/-! ## The publishers -/

theorem publishersInitFrom_filter (env : InitEnv) (any : Bool) (effects : List InitEffect)
    (topics : List TopicEntry) :
    publishersInitFrom env any effects topics
      = publishersInitFrom env any effects (topics.filter (·.rx)) := by
  induction topics generalizing any effects with
  | nil => rfl
  | cons entry rest ih =>
      cases hrx : entry.rx with
      | false =>
          rw [publishersInitFrom, if_pos hrx, List.filter_cons_of_neg (by simp [hrx])]
          exact ih any effects
      | true =>
          have hinbound : ¬ entry.rx = false := by simp [hrx]
          rw [List.filter_cons_of_pos (by exact hrx), publishersInitFrom, publishersInitFrom,
            if_neg hinbound, if_neg hinbound]
          simp only
          split
          · rfl
          · exact ih _ _

/-- The calls for inbound topics: the node once, in front of the first publisher. -/
def pubEffects (any : Bool) (inbound : List TopicEntry) : List InitEffect :=
  (if any = false ∧ inbound ≠ [] then [.nodeInit] else []) ++ inbound.map fun e => .pubInit e.key

/-- `publishers_init` stops at the first publisher that cannot be had. -/
theorem publishersInitFrom_cases (env : InitEnv) (any : Bool) (effects : List InitEffect)
    {inbound : List TopicEntry} (hrx : ∀ e ∈ inbound, e.rx = true) :
    (publishersInitFrom env any effects inbound = (effects ++ pubEffects any inbound, none) ∧
        ∀ e ∈ inbound, env.zrosPubInit e.key = 0) ∨
      ∃ front entry back, inbound = front ++ entry :: back ∧ env.zrosPubInit entry.key ≠ 0 ∧
        publishersInitFrom env any effects inbound
          = (effects ++ pubEffects any (front ++ [entry]),
            some (.other (env.zrosPubInit entry.key))) := by
  induction inbound generalizing any effects with
  | nil => exact Or.inl ⟨by simp [publishersInitFrom, pubEffects], fun e h => by cases h⟩
  | cons entry rest ih =>
      rw [List.forall_mem_cons] at hrx
      have hstep : publishersInitFrom env any effects (entry :: rest)
          = if env.zrosPubInit entry.key ≠ 0 then
              (effects ++ pubEffects any [entry], some (.other (env.zrosPubInit entry.key)))
            else publishersInitFrom env true (effects ++ pubEffects any [entry]) rest := by
        rw [publishersInitFrom, if_neg (by simp [hrx.1])]
        cases any <;> simp [pubEffects]
      have hcons (later : List TopicEntry) :
          effects ++ pubEffects any [entry] ++ pubEffects true later
            = effects ++ pubEffects any (entry :: later) := by
        cases any <;> simp [pubEffects]
      by_cases hrc : env.zrosPubInit entry.key = 0
      · rw [hstep, if_neg (not_not.mpr hrc)]
        rcases ih true (effects ++ pubEffects any [entry]) hrx.2 with
          ⟨hrest, hall⟩ | ⟨front, bad, back, rfl, hbad, hrest⟩
        · refine Or.inl ⟨?_, List.forall_mem_cons.mpr ⟨hrc, hall⟩⟩
          rw [hrest, hcons]
        · refine Or.inr ⟨entry :: front, bad, back, rfl, hbad, ?_⟩
          rw [hrest, hcons]
          rfl
      · exact Or.inr ⟨[], entry, rest, rfl, hrc, by rw [hstep, if_pos hrc]; rfl⟩

theorem publishersInit_cases (env : InitEnv) (topics : List TopicEntry) :
    (publishersInit env topics = (pubEffects false (topics.filter (·.rx)), none) ∧
        ∀ e ∈ topics, e.rx = true → env.zrosPubInit e.key = 0) ∨
      ∃ tried rc, publishersInit env topics = (pubEffects false tried, some rc) ∧
        ∃ e ∈ topics, e.rx = true ∧ env.zrosPubInit e.key ≠ 0 := by
  rw [publishersInit, publishersInitFrom_filter]
  have hrx : ∀ e ∈ topics.filter (·.rx), e.rx = true := fun e he => (List.mem_filter.mp he).2
  rcases publishersInitFrom_cases env false [] hrx with
    ⟨heq, hall⟩ | ⟨front, entry, back, hsplit, hbad, heq⟩
  · exact Or.inl ⟨heq, fun e he hrx => hall e (List.mem_filter.mpr ⟨he, hrx⟩)⟩
  · refine Or.inr ⟨_, _, heq, entry, ?_⟩
    have hmem : entry ∈ topics.filter (·.rx) := by
      rw [hsplit]
      simp
    exact ⟨(List.mem_filter.mp hmem).1, (List.mem_filter.mp hmem).2, hbad⟩

theorem bindEntry_rx (env : InitEnv) (entry : TopicEntry) : (bindEntry env entry).rx = entry.rx := by
  unfold bindEntry
  split <;> rfl

theorem bindEntry_key (env : InitEnv) (entry : TopicEntry) :
    (bindEntry env entry).key = entry.key := by
  unfold bindEntry
  split <;> rfl

theorem mem_pubEffects {any : Bool} {inbound : List TopicEntry} {e : InitEffect}
    (h : e ∈ pubEffects any inbound) : e ≠ .rxEnable ∧ e ≠ .threadCreate := by
  rw [pubEffects, List.mem_append] at h
  rcases h with h | h
  · split at h
    · rw [List.mem_singleton] at h
      subst h
      exact ⟨nofun, nofun⟩
    · cases h
  · obtain ⟨entry, -, rfl⟩ := List.mem_map.mp h
    exact ⟨nofun, nofun⟩

/-! ## The link as a whole -/

/-- What `zros_serial_init` returns, case by case, and the state it leaves. -/
theorem zrosSerialInit_cases (env : InitEnv) (topics : List TopicEntry) :
    let r := zrosSerialInit env { topics := topics }
    (env.deviceReady = false ∧ r = ({ topics := topics, initRc := some .enodev }, some .enodev)) ∨
      (∃ front entry back rc, env.deviceReady = true ∧ topics = front ++ entry :: back ∧
        (∀ e ∈ front, resolveError env e = none) ∧ resolveError env entry = some rc ∧
        r = ({ topics := front.map (bindEntry env) ++ entry :: back, initRc := some rc },
          some rc)) ∨
      (∃ tried rc, env.deviceReady = true ∧ (∀ e ∈ topics, resolveError env e = none) ∧
        (∃ e ∈ topics, e.rx = true ∧ env.zrosPubInit e.key ≠ 0) ∧
        r = ({ topics := topics.map (bindEntry env), initRc := some rc,
               effects := pubEffects false tried }, some rc)) ∨
      (env.deviceReady = true ∧ (∀ e ∈ topics, resolveError env e = none) ∧
        (∀ e ∈ topics, e.rx = true → env.zrosPubInit e.key = 0) ∧
        r = if env.callbackSet ≠ 0 then
            ({ topics := topics.map (bindEntry env), initRc := some (.other env.callbackSet),
               effects := pubEffects false ((topics.map (bindEntry env)).filter (·.rx))
                ++ [.ringsInit, .callbackSet] }, some (.other env.callbackSet))
          else
            ({ topics := topics.map (bindEntry env), ready := true,
               effects := pubEffects false ((topics.map (bindEntry env)).filter (·.rx))
                ++ [.ringsInit, .callbackSet, .rxEnable, .threadCreate] }, none)) := by
  intro r
  cases hdevice : env.deviceReady with
  | false =>
      refine Or.inl ⟨rfl, ?_⟩
      simp only [r, zrosSerialInit, hdevice, if_true]
  | true =>
      rcases topicsResolve_cases env topics with
        ⟨hresolve, hall⟩ | ⟨front, entry, back, rc, hsplit, hfront, hbad, hresolve⟩
      · rcases publishersInit_cases env (topics.map (bindEntry env)) with
          ⟨hpub, hpubs⟩ | ⟨tried, rc, hpub, e, he, hrx, hbad⟩
        · refine Or.inr (Or.inr (Or.inr ⟨rfl, hall, fun e he hrx => ?_, ?_⟩))
          · have h := hpubs _ (List.mem_map_of_mem he) (by rw [bindEntry_rx]; exact hrx)
            rwa [bindEntry_key] at h
          · have hready : ¬ env.deviceReady = false := by simp [hdevice]
            simp only [r, zrosSerialInit, if_neg hready, hresolve, hpub]
            split <;> simp
        · obtain ⟨entry, hentry, rfl⟩ := List.mem_map.mp he
          rw [bindEntry_rx] at hrx
          rw [bindEntry_key] at hbad
          refine Or.inr (Or.inr (Or.inl ⟨tried, rc, rfl, hall, ⟨entry, hentry, hrx, hbad⟩, ?_⟩))
          simp [r, zrosSerialInit, hdevice, hresolve, hpub]
      · refine Or.inr (Or.inl ⟨front, entry, back, rc, rfl, hsplit, hfront, hbad, ?_⟩)
        simp [r, zrosSerialInit, hdevice, hresolve]

/-- The link comes up exactly when the UART is there, both ends agree on every
topic, every inbound topic gets its publisher and the interrupt its callback. What
went wrong is kept for the shell. Until then no interrupt is enabled and no thread
created, and the publishers were there first; the table is then bound to the
catalog. -/
theorem zros_serial_init_ready_iff (env : InitEnv) (topics : List TopicEntry) :
    let r := zrosSerialInit env { topics := topics }
    (r.1.ready = true ↔
        env.deviceReady = true ∧ (∀ e ∈ topics, ∃ info, Agreed env e info) ∧
          (∀ e ∈ topics, e.rx = true → env.zrosPubInit e.key = 0) ∧ env.callbackSet = 0) ∧
      (r.1.ready = true ↔ r.2 = none) ∧ r.1.initRc = r.2 ∧
      (r.1.ready = false → .rxEnable ∉ r.1.effects ∧ .threadCreate ∉ r.1.effects) ∧
      (r.1.ready = true → r.1.topics = topics.map (bindEntry env) ∧
        r.1.effects = pubEffects false (r.1.topics.filter (·.rx))
          ++ [.ringsInit, .callbackSet, .rxEnable, .threadCreate]) := by
  intro r
  have hagreed : (∀ e ∈ topics, ∃ info, Agreed env e info)
      ↔ ∀ e ∈ topics, resolveError env e = none := by
    simp only [resolveError_eq_none]
  rw [hagreed]
  rcases zrosSerialInit_cases env topics with
    ⟨hdevice, hr⟩ | ⟨front, entry, back, rc, hdevice, hsplit, -, hbad, hr⟩
      | ⟨tried, rc, hdevice, hall, ⟨e, he, hrx, hbad⟩, hr⟩ | ⟨hdevice, hall, hpubs, hr⟩
  · have hr : r = _ := hr
    rw [hr]
    simp [hdevice]
  · have hr : r = _ := hr
    have hentry : ¬ ∀ e ∈ topics, resolveError env e = none := by
      intro hall
      have hnone := hall entry (by rw [hsplit]; simp)
      rw [hbad] at hnone
      cases hnone
    rw [hr]
    simp [hentry]
  · have hr : r = _ := hr
    have hpub : ¬ ∀ e ∈ topics, e.rx = true → env.zrosPubInit e.key = 0 :=
      fun h => hbad (h e he hrx)
    rw [hr]
    refine ⟨by simp [hpub], by simp, rfl, fun _ => ⟨fun h => ?_, fun h => ?_⟩, by simp⟩
    · exact (mem_pubEffects h).1 rfl
    · exact (mem_pubEffects h).2 rfl
  · have hr : r = _ := hr
    by_cases hcallback : env.callbackSet = 0
    · rw [if_neg (not_not.mpr hcallback)] at hr
      rw [hr]
      simp [hdevice, hcallback]
      exact ⟨hall, hpubs⟩
    · rw [if_pos hcallback] at hr
      rw [hr]
      refine ⟨by simp [hcallback], by simp, rfl, fun _ => ⟨fun h => ?_, fun h => ?_⟩, by simp⟩
      · rcases List.mem_append.mp h with h | h
        · exact (mem_pubEffects h).1 rfl
        · simp at h
      · rcases List.mem_append.mp h with h | h
        · exact (mem_pubEffects h).2 rfl
        · simp at h

theorem topicById_of_mem {cfg : SerialConfig} (hids : cfg.topics.Pairwise fun a b => a.id ≠ b.id)
    {entry : SerialTopic} (h : entry ∈ cfg.topics) : topicById cfg entry.id = some entry := by
  unfold topicById
  generalize cfg.topics = topics at hids h
  induction topics with
  | nil => cases h
  | cons first later ih =>
      rw [List.pairwise_cons] at hids
      rcases List.mem_cons.mp h with rfl | h
      · exact List.find?_cons_of_pos (by simp)
      · rw [List.find?_cons_of_neg (by simpa using hids.1 entry h)]
        exact ih hids.2 h

/-- On a link that came up `topic_by_id` inverts the table, and every payload of the
table fits a frame; an inbound topic that the catalog has as the GNSS fix is ready
for what the ground station injects. Asked of the catalog is only that no two keys
share an id. -/
theorem ready_link_carries (env : InitEnv) (topics : List TopicEntry) (cfg : SerialConfig)
    (hids : ∀ k l i j, env.synapseTopicByKey k = some i → env.synapseTopicByKey l = some j →
      i.id = j.id → k = l)
    (hkeys : topics.Pairwise fun a b => a.key ≠ b.key)
    (hready : (zrosSerialInit env { topics := topics }).1.ready = true)
    (htopics : cfg.topics
      = (zrosSerialInit env { topics := topics }).1.topics.map (·.toSerialTopic))
    (hmax : cfg.maxPayload = env.maxPayload) :
    (∀ e ∈ cfg.topics, topicById cfg e.id = some e ∧ e.payloadSize ≤ cfg.maxPayload) ∧
      ∀ e ∈ topics, e.rx = true → e.pub = true →
        env.synapseTopicByKey e.key = some ⟨topicGnssFix, true, 64⟩ →
        ∃ entry, entry.key = e.key ∧ CarriesGnss cfg entry := by
  obtain ⟨hup, -, -, -, htable⟩ := zros_serial_init_ready_iff env topics
  obtain ⟨-, hagreed, -, -⟩ := hup.mp hready
  rw [(htable hready).1, List.map_map] at htopics
  have hdistinct : cfg.topics.Pairwise fun a b => a.id ≠ b.id := by
    rw [htopics, List.pairwise_map]
    refine hkeys.imp_of_mem fun {a b} ha hb hne heq => ?_
    obtain ⟨i, hi⟩ := hagreed a ha
    obtain ⟨j, hj⟩ := hagreed b hb
    simp only [Function.comp_apply, hi.bindEntry_eq, hj.bindEntry_eq] at heq
    exact hne (hids _ _ i j hi.found hj.found heq)
  have hfind : ∀ e ∈ topics, ∀ info, Agreed env e info →
      topicById cfg info.id = some { e.toSerialTopic with id := info.id, payloadSize := e.busSize } := by
    intro e he info hinfo
    have hmem : (bindEntry env e).toSerialTopic ∈ cfg.topics := by
      rw [htopics]
      exact List.mem_map_of_mem (f := (fun e => e.toSerialTopic) ∘ bindEntry env) he
    have h := topicById_of_mem hdistinct hmem
    rw [hinfo.bindEntry_eq] at h
    exact h
  refine ⟨fun e he => ⟨topicById_of_mem hdistinct he, ?_⟩, fun e he hrx hpub hgnss => ?_⟩
  · rw [htopics] at he
    obtain ⟨entry, hentry, rfl⟩ := List.mem_map.mp he
    obtain ⟨info, hinfo⟩ := hagreed entry hentry
    simp only [Function.comp_apply, hinfo.bindEntry_eq]
    rw [hmax, ← hinfo.size]
    exact hinfo.fits
  · obtain ⟨info, hinfo⟩ := hagreed e he
    have hcatalog : info = ⟨topicGnssFix, true, 64⟩ :=
      Option.some.inj (hinfo.found.symm.trans hgnss)
    have hsize : e.busSize = 64 := by rw [← hinfo.size, hcatalog]
    have hfits : 64 ≤ cfg.maxPayload := by
      have hfits := hinfo.fits
      rw [hcatalog] at hfits
      rw [hmax]
      exact hfits
    have hfound := hfind e he info hinfo
    rw [hcatalog] at hfound
    exact ⟨{ e.toSerialTopic with id := topicGnssFix, payloadSize := e.busSize }, rfl,
      hfound, hrx, hpub, hsize, hfits⟩

def radioEnv : InitEnv where
  maxPayload := 128
  maxPayload_le := SerialConfig.mocap.maxPayload_le
  deviceReady := true
  synapseTopicByKey := fun key =>
    match key with
    | "health" => some ⟨1, true, 48⟩
    | "att" => some ⟨11, true, 40⟩
    | "att_sp" => some ⟨19, true, 48⟩
    | "pwm" => some ⟨25, true, 48⟩
    | "loop" => some ⟨26, true, 24⟩
    | "gnss" => some ⟨8, true, 64⟩
    | _ => none
  zrosPubInit := fun _ => 0
  callbackSet := 0

/-- `g_topics` of a build whose fix comes by radio. -/
def radioTable : List TopicEntry :=
  [⟨⟨"health", true, false, false, 0, 0⟩, 48⟩, ⟨⟨"att", true, false, false, 0, 0⟩, 40⟩,
    ⟨⟨"att_sp", true, false, false, 0, 0⟩, 48⟩, ⟨⟨"pwm", true, false, false, 0, 0⟩, 48⟩,
    ⟨⟨"loop", true, false, false, 0, 0⟩, 24⟩, ⟨⟨"gnss", true, true, true, 0, 0⟩, 64⟩]

theorem ready_link_carries_radio : ∃ entry, entry.key = "gnss" ∧ CarriesGnss .mocap entry := by
  have hids : ∀ k l i j, radioEnv.synapseTopicByKey k = some i →
      radioEnv.synapseTopicByKey l = some j → i.id = j.id → k = l := by
    intro k l i j hi hj hid
    simp only [radioEnv] at hi hj
    split at hi <;> cases hi <;> split at hj <;> cases hj <;> first | rfl | cases hid
  exact (ready_link_carries radioEnv radioTable .mocap hids (by decide) (by decide) (by decide)
    rfl).2 ⟨⟨"gnss", true, true, true, 0, 0⟩, 64⟩ (by decide) rfl rfl (by decide)

end Rdd2
