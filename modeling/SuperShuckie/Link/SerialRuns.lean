import SuperShuckie.Link.SerialEvents

/-!
# Logs of serial events

A log is written in groups, one for each run of events of the same kind, and a group of slave bits
holds the distance of each bit from the one before it.  So a log is read back if its slave bits come in
the order of their cycles, run by run (`RunsInOrder`), and its bits are among the first
`maxGbEvents` events (`BitsFit`), which is so for every log that was itself read.

* `decodeGo_encodeGo`, `runsInOrder_of_decodeGo`: a log whose bits fit is read back if and only if its
  runs are in order.
* `decoding`: reading comes to an end by itself.
* `serialEvents_spec`: the codec as a whole.
* `decode_out_of_order`: two groups of slave bits in a row are one run, which need not be in order.
-/

set_option autoImplicit false

namespace SuperShuckie

open ByteFormat Reader

namespace GbSerialEvents

open GbSerialEvent

variable {events : List GbSerialEvent} {data : Bytes}

/-- Whether an event is a bit. -/
def isBit : GbSerialEvent → Bool
  | connected _ => false
  | _ => true

/-- Whether an event is a slave bit. -/
def isSlaveBit : GbSerialEvent → Bool
  | slaveBit _ _ => true
  | _ => false

/-- A slave bit does not come before the slave bit in front of it. -/
def Follows : GbSerialEvent → GbSerialEvent → Prop
  | slaveBit cycles _, slaveBit cycles' _ => cycles ≤ cycles'
  | _, _ => True

/-- Within each run of consecutive slave bits the cycles do not decrease. -/
def RunsInOrder (events : List GbSerialEvent) : Prop := events.IsChain Follows

/-- All bits are among the first `maxGbEvents` events. -/
def BitsFit (events : List GbSerialEvent) : Prop :=
  ∀ event ∈ events.drop maxGbEvents, isBit event = false

theorem bitsFit_of_length_le (h : events.length ≤ maxGbEvents) : BitsFit events := by
  rw [BitsFit, List.drop_eq_nil_of_le h]
  exact fun event hevent ↦ absurd hevent List.not_mem_nil

variable {rest : List GbSerialEvent} {bits : List (UInt64 × Bool)}

/-- A run of bits that fits ends within the first `maxGbEvents` events. -/
theorem BitsFit.length_le {already bits : List GbSerialEvent}
    (h : BitsFit (already ++ (bits ++ rest))) (hbits : ∀ event ∈ bits, isBit event = true)
    (hne : bits ≠ []) : already.length + bits.length ≤ maxGbEvents := by
  by_contra hlong
  have hmem : bits.getLast hne ∈ (already ++ (bits ++ rest)).drop maxGbEvents := by
    rw [← List.append_assoc, List.drop_append_of_le_length (by rw [List.length_append]; omega)]
    refine List.mem_append_left _ ?_
    have hlast : (already ++ bits).getLast (List.append_ne_nil_of_right_ne_nil _ hne) =
        bits.getLast hne := List.getLast_append_of_ne_nil _ hne
    rw [← hlast, ← List.getLast_drop (i := maxGbEvents) (by
      rw [ne_eq, List.drop_eq_nil_iff, List.length_append]
      omega)]
    exact List.getLast_mem _
  exact absurd (h _ hmem) (by rw [hbits _ (List.getLast_mem hne)]; decide)

/-! ## The groups of a log -/

theorem spanMaster_spec (events : List GbSerialEvent) :
    (spanMaster events).1.map masterBit ++ (spanMaster events).2 = events := by
  induction events with
  | nil => rfl
  | cons event events ih =>
    cases event with
    | masterBit bit => exact congrArg (masterBit bit :: ·) ih
    | slaveBit cycles bit | connected c => rfl

/-- A slave bit of a run, as an event. -/
def ofSlave (b : UInt64 × Bool) : GbSerialEvent := slaveBit b.1 b.2

/-- The run ends where it is not followed by a slave bit. -/
theorem spanSlave_spec (events : List GbSerialEvent) :
    (spanSlave events).1.map ofSlave ++ (spanSlave events).2 = events ∧
      ∀ event ∈ (spanSlave events).2.head?, isSlaveBit event = false := by
  induction events with
  | nil => exact ⟨rfl, fun event h ↦ by cases h⟩
  | cons event events ih =>
    cases event with
    | slaveBit cycles bit => exact ⟨congrArg (slaveBit cycles bit :: ·) ih.1, ih.2⟩
    | masterBit bit | connected c =>
      refine ⟨rfl, fun event h ↦ ?_⟩
      cases h
      rfl

/-- The first group of a log and what is left of the log behind it. -/
inductive FirstGroup (fuel : Nat) : List GbSerialEvent → Prop where
  | master (bits : List Bool) (rest : List GbSerialEvent) : bits ≠ [] →
      encodeGo (fuel + 1) (bits.map masterBit ++ rest) = tagMaster ::
        ((pushVarint (UInt64.ofNat bits.length) ++ packBits 0 0 bits) ++ encodeGo fuel rest) →
      FirstGroup fuel (bits.map masterBit ++ rest)
  | slave (bits : List (UInt64 × Bool)) (rest : List GbSerialEvent) : bits ≠ [] →
      (∀ event ∈ rest.head?, isSlaveBit event = false) →
      encodeGo (fuel + 1) (bits.map ofSlave ++ rest) = tagSlave ::
        ((pushVarint (UInt64.ofNat bits.length) ++ pushSlaveBits 0 bits) ++ encodeGo fuel rest) →
      FirstGroup fuel (bits.map ofSlave ++ rest)
  | connected (c : Bool) (rest : List GbSerialEvent) :
      encodeGo (fuel + 1) (connected c :: rest) =
        tagConnected :: ([c.toUInt8] ++ encodeGo fuel rest) →
      FirstGroup fuel (connected c :: rest)

/-- Every log that is not empty starts with a group. -/
theorem firstGroup (fuel : Nat) (event : GbSerialEvent) (events : List GbSerialEvent) :
    FirstGroup fuel (event :: events) := by
  cases event with
  | masterBit bit =>
    have hspan := spanMaster_spec (masterBit bit :: events)
    rw [← hspan]
    refine .master _ _ (List.cons_ne_nil _ _) ?_
    rw [hspan]
    rfl
  | slaveBit cycles bit =>
    obtain ⟨hspan, hhead⟩ := spanSlave_spec (slaveBit cycles bit :: events)
    rw [← hspan]
    refine .slave _ _ (List.cons_ne_nil _ _) hhead ?_
    rw [hspan]
    rfl
  | connected c => exact .connected c events rfl

/-! ## Reading a group -/

theorem toNat_length {n : Nat} (h : n ≤ maxGbEvents) : (UInt64.ofNat n).toNat = n := by
  rw [maxGbEvents] at h
  rw [UInt64.toNat_ofNat']
  exact Nat.mod_eq_of_lt (by omega)

theorem reads_masterGroup {already : Nat} {bits : List Bool}
    (h : already + bits.length ≤ maxGbEvents) : Reads (readGroup already tagMaster)
      (pushVarint (UInt64.ofNat bits.length) ++ packBits 0 0 bits) (bits.map masterBit) := by
  have hcount := toNat_length (Nat.le_trans (Nat.le_add_left _ _) h)
  rw [readGroup, if_pos rfl]
  refine (reads_varint _).bind ?_
  rw [hcount, if_neg (by omega), ← map_packedBit_packBits]
  refine (reads_takeBytes_of_length ?_).bind_pure
  rw [length_packBits, Nat.zero_mod, Nat.zero_add]

theorem reads_slaveGroup {already : Nat} (h : already + bits.length ≤ maxGbEvents)
    (horder : InOrder 0 bits) : Reads (readGroup already tagSlave)
      (pushVarint (UInt64.ofNat bits.length) ++ pushSlaveBits 0 bits) (bits.map ofSlave) := by
  have hcount := toNat_length (Nat.le_trans (Nat.le_add_left _ _) h)
  rw [readGroup, if_neg (by decide), if_pos rfl]
  refine (reads_varint _).bind ?_
  rw [hcount, if_neg (by omega)]
  exact reads_slaveBits horder

theorem reads_connectedGroup (already : Nat) (c : Bool) :
    Reads (readGroup already tagConnected) [c.toUInt8] [connected c] := by
  rw [readGroup, if_neg (by decide), if_neg (by decide), if_pos rfl, ← List.append_nil [c.toUInt8]]
  refine (reads_takeByte _ _).bind ?_
  have hone : ¬ 1 < c.toUInt8 := by cases c <;> decide
  have hc : decide (c.toUInt8 ≠ 0) = c := by cases c <;> rfl
  rw [if_neg hone, hc]
  exact reads_pure _

/-- Slave bits that are read come in order, whatever the bytes. -/
theorem returns_slaveBits (count : Nat) (previous : UInt64) :
    Returns (fun group ↦ ∃ bits, group = bits.map ofSlave ∧ bits.length = count ∧
      InOrder previous bits) (readSlaveBits count previous) := by
  induction count generalizing previous with
  | zero => exact .pure ⟨[], rfl, rfl, trivial⟩
  | succ count ih =>
    rw [readSlaveBits]
    refine Returns.bind fun delta ↦ ?_
    split
    · exact .throw
    rename_i hfits
    refine Returns.bind fun bit ↦ ?_
    split
    · exact .throw
    intro bs group rest hgroup
    rw [bind_apply] at hgroup
    cases hbits : readSlaveBits count (previous + UInt64.ofNat delta) bs with
    | error e => rw [hbits] at hgroup; cases hgroup
    | ok r =>
      obtain ⟨bits, hmap, hcount, horder⟩ := ih _ bs r.1 r.2 hbits
      rw [hbits] at hgroup
      cases hgroup
      refine ⟨(previous + UInt64.ofNat delta, bit ≠ 0) :: bits, ?_, congrArg (· + 1) hcount, ?_,
        horder⟩
      · rw [hmap]
        rfl
      · rw [UInt64.le_iff_toNat_le, UInt64.toNat_add, UInt64.toNat_ofNat',
          Nat.mod_eq_of_lt (show delta < 2 ^ 64 by omega), Nat.mod_eq_of_lt (by omega)]
        exact Nat.le_add_right _ _

theorem stable_varint : Stable readVarint := by
  have hgo : ∀ data shift value n rest, readVarintGo data shift value = .ok (n, rest) →
      ∃ pre, data = pre ++ rest ∧
        ∀ more, readVarintGo (pre ++ more) shift value = .ok (n, more) := by
    intro data
    induction data with
    | nil => exact fun _ _ _ _ h ↦ by cases h
    | cons byte data ih =>
      intro shift value n rest h
      rw [readVarintGo] at h
      split_ifs at h with hlong hlast
      · cases h
        refine ⟨[byte], rfl, fun more ↦ ?_⟩
        rw [List.singleton_append, readVarintGo, if_neg hlong, if_pos hlast]
      · obtain ⟨pre, rfl, hpre⟩ := ih _ _ _ _ h
        refine ⟨byte :: pre, rfl, fun more ↦ ?_⟩
        rw [List.cons_append, readVarintGo, if_neg hlong, if_neg hlast]
        exact hpre more
  exact fun data n rest h ↦ hgo data 0 0 n rest h

theorem stable_slaveBits (count : Nat) (previous : UInt64) :
    Stable (readSlaveBits count previous) := by
  induction count generalizing previous with
  | zero => exact stable_pure _
  | succ count ih =>
    rw [readSlaveBits]
    refine stable_varint.bind fun delta ↦ .ite (stable_throw _) ?_
    refine (stable_takeByte _).bind fun bit ↦ .ite (stable_throw _) ?_
    exact (ih _).bind fun bits ↦ stable_pure _

theorem stable_readGroup (already : Nat) (tag : UInt8) : Stable (readGroup already tag) := by
  rw [readGroup]
  refine .ite ?_ (.ite ?_ (.ite ?_ (.ite (stable_throw _) (stable_throw _))))
  · refine stable_varint.bind fun count ↦ .ite (stable_throw _) ?_
    exact (stable_takeBytes _ _).bind fun packed ↦ stable_pure _
  · exact stable_varint.bind fun count ↦ .ite (stable_throw _) (stable_slaveBits _ _)
  · refine (stable_takeByte _).bind fun c ↦ .ite (stable_throw _) (stable_pure _)

/-- A group that is read is one flag, or bits among the first `maxGbEvents` events. -/
theorem returns_readGroup (already : Nat) (tag : UInt8) :
    Returns (fun group ↦ already + group.length ≤ maxGbEvents ∨ ∃ c, group = [connected c])
      (readGroup already tag) := by
  rw [readGroup]
  split
  · refine Returns.bind fun count ↦ ?_
    split
    · exact .throw
    refine Returns.bind fun packed ↦ .pure (Or.inl ?_)
    rw [List.length_map, List.length_range]
    omega
  split
  · refine Returns.bind fun count ↦ ?_
    split
    · exact .throw
    intro bs group rest hgroup
    obtain ⟨bits, rfl, hcount, -⟩ := returns_slaveBits count 0 bs group rest hgroup
    refine Or.inl ?_
    rw [List.length_map]
    omega
  split
  · refine Returns.bind fun c ↦ ?_
    split
    · exact .throw
    · exact .pure (Or.inr ⟨_, rfl⟩)
  split
  · exact .throw
  · exact .throw

/-! ## Reading a log -/

theorem decodeGo_nil (fuel : Nat) (events : List GbSerialEvent) :
    decodeGo fuel events [] = .ok events := by
  cases fuel <;> rfl

theorem decodeGo_cons (fuel : Nat) (events : List GbSerialEvent) (tag : UInt8) (data : Bytes) :
    decodeGo (fuel + 1) events (tag :: data) =
      (readGroup events.length tag data >>= fun r ↦ decodeGo fuel (events ++ r.1) r.2) := rfl

/-- What is read off the front of the data by `Reads` is a group of the log. -/
theorem decodeGo_of_reads {fuel : Nat} {tag : UInt8} {bytes : Bytes} {group : List GbSerialEvent}
    (h : Reads (readGroup events.length tag) bytes group) (data : Bytes) :
    decodeGo (fuel + 1) events (tag :: (bytes ++ data)) = decodeGo fuel (events ++ group) data := by
  rw [decodeGo_cons, h data]
  rfl

/-- The log that is read, group by group, to the end of the data or to an error. -/
inductive Decoding : List GbSerialEvent → Bytes → Except LinkError (List GbSerialEvent) → Prop where
  | done (events : List GbSerialEvent) : Decoding events [] (.ok events)
  | refused {events : List GbSerialEvent} {tag : UInt8} {data : Bytes} {e : LinkError} :
      readGroup events.length tag data = .error e → Decoding events (tag :: data) (.error e)
  | group {events : List GbSerialEvent} {tag : UInt8} {data : Bytes} {group : List GbSerialEvent}
      {rest : Bytes} {result : Except LinkError (List GbSerialEvent)} :
      readGroup events.length tag data = .ok (group, rest) →
      Decoding (events ++ group) rest result → Decoding events (tag :: data) result

/-- **Reading comes to an end by itself**: every group takes a byte at least, so it is not the fuel
that ends it. -/
theorem decoding {fuel : Nat} (h : data.length ≤ fuel) :
    Decoding events data (decodeGo fuel events data) := by
  induction fuel generalizing events data with
  | zero =>
    obtain rfl := List.eq_nil_of_length_eq_zero (Nat.le_zero.1 h)
    exact .done events
  | succ fuel ih =>
    cases data with
    | nil => exact .done events
    | cons tag data =>
      rw [List.length_cons] at h
      rw [decodeGo_cons]
      cases hgroup : readGroup events.length tag data with
      | error e => exact .refused hgroup
      | ok r =>
        have hrest := (stable_readGroup _ _).length_le hgroup
        exact .group hgroup (ih (by omega))

/-- What was read before stays in front, and the bits stay where they fit. -/
theorem Decoding.spec {result : Except LinkError (List GbSerialEvent)}
    (h : Decoding events data result) {out : List GbSerialEvent} (hout : result = .ok out) :
    (∃ more, out = events ++ more) ∧ (BitsFit events → BitsFit out) := by
  induction h with
  | done events =>
    cases hout
    exact ⟨⟨[], (List.append_nil _).symm⟩, id⟩
  | refused => cases hout
  | @group events tag data group rest result hgroup _ ih =>
    obtain ⟨⟨more, hmore⟩, hfit⟩ := ih hout
    refine ⟨⟨group ++ more, by rw [hmore, List.append_assoc]⟩, fun hevents ↦ hfit ?_⟩
    obtain hlength | ⟨c, rfl⟩ := returns_readGroup _ _ _ _ _ hgroup
    · exact bitsFit_of_length_le (by rwa [List.length_append])
    · intro event hevent
      rw [List.drop_append] at hevent
      obtain hevent | hevent := List.mem_append.1 hevent
      · exact hevents event hevent
      · obtain rfl := List.mem_singleton.1 (List.mem_of_mem_drop hevent)
        rfl

/-! ## Runs in order -/

theorem follows_of_not_slaveBit {a b : GbSerialEvent} (h : isSlaveBit a = false ∨ isSlaveBit b = false) :
    Follows a b := by
  cases a <;> cases b <;> simp_all [Follows, isSlaveBit]

theorem runsInOrder_master {bits : List Bool} :
    RunsInOrder (bits.map masterBit ++ rest) ↔ RunsInOrder rest := by
  induction bits with
  | nil => exact Iff.rfl
  | cons bit bits ih =>
    rw [List.map_cons, List.cons_append, RunsInOrder, List.isChain_cons]
    rw [RunsInOrder] at ih
    rw [ih]
    exact and_iff_right fun b _ ↦ follows_of_not_slaveBit (Or.inl rfl)

theorem runsInOrder_connected {c : Bool} :
    RunsInOrder (connected c :: rest) ↔ RunsInOrder rest := by
  rw [RunsInOrder, List.isChain_cons]
  exact and_iff_right fun b _ ↦ follows_of_not_slaveBit (Or.inl rfl)

/-- A run that goes on behind a slave bit. -/
theorem runsInOrder_slave_cons (hrest : ∀ event ∈ rest.head?, isSlaveBit event = false)
    (previous : UInt64) (bit : Bool) :
    RunsInOrder (slaveBit previous bit :: (bits.map ofSlave ++ rest)) ↔
      InOrder previous bits ∧ RunsInOrder rest := by
  induction bits generalizing previous bit with
  | nil =>
    rw [RunsInOrder, List.map_nil, List.nil_append, List.isChain_cons]
    exact and_congr_left fun _ ↦
      iff_true_intro fun event hevent ↦ follows_of_not_slaveBit (Or.inr (hrest event hevent))
  | cons b bits ih =>
    rw [RunsInOrder, List.map_cons, List.cons_append, List.isChain_cons_cons]
    refine (and_congr_right fun _ ↦ ih b.1 b.2).trans ?_
    exact and_assoc.symm

theorem runsInOrder_slave {bits : List (UInt64 × Bool)} {rest : List GbSerialEvent}
    (hrest : ∀ event ∈ rest.head?, isSlaveBit event = false) :
    RunsInOrder (bits.map ofSlave ++ rest) ↔ InOrder 0 bits ∧ RunsInOrder rest := by
  cases bits with
  | nil => exact (and_iff_right trivial).symm
  | cons b bits =>
    refine (runsInOrder_slave_cons hrest b.1 b.2).trans (and_congr_left fun _ ↦ ?_)
    exact (and_iff_right (UInt64.le_iff_toNat_le.2 (Nat.zero_le _))).symm

/-! ## Round trips -/

theorem length_group_le {bytes : Bytes} {tag : UInt8} {group : Bytes} {fuel : Nat}
    (h : (tag :: (group ++ bytes)).length ≤ fuel) :
    ∃ fuel', fuel = fuel' + 1 ∧ bytes.length ≤ fuel' := by
  rw [List.length_cons, List.length_append] at h
  exact ⟨fuel - 1, by omega, by omega⟩

theorem length_le_of_append_map {α : Type} {bits : List α} {f : α → GbSerialEvent} {fuel : Nat}
    (h : (bits.map f ++ rest).length ≤ fuel + 1) (hne : bits ≠ []) : rest.length ≤ fuel := by
  have hpos := List.length_pos_iff.2 hne
  rw [List.length_append, List.length_map] at h
  omega

theorem append_map_assoc {α : Type} {already : List GbSerialEvent} {bits : List α}
    {f : α → GbSerialEvent} : already ++ (bits.map f ++ rest) = already ++ bits.map f ++ rest :=
  (List.append_assoc ..).symm

/-- **A log in order is read back**, if its bits fit. -/
theorem decodeGo_encodeGo {already : List GbSerialEvent} {fuel fuel' : Nat}
    (hfuel : events.length ≤ fuel) (hfuel' : (encodeGo fuel events).length ≤ fuel')
    (hfit : BitsFit (already ++ events)) (horder : RunsInOrder events) :
    decodeGo fuel' already (encodeGo fuel events) = .ok (already ++ events) := by
  induction fuel generalizing already events fuel' with
  | zero =>
    obtain rfl := List.eq_nil_of_length_eq_zero (Nat.le_zero.1 hfuel)
    rw [List.append_nil]
    exact decodeGo_nil fuel' already
  | succ fuel ih =>
    cases events with
    | nil =>
      rw [List.append_nil]
      exact decodeGo_nil fuel' already
    | cons event events =>
      have hgroup := firstGroup fuel event events
      generalize event :: events = log at *
      cases hgroup with
      | master bits rest hne hencode =>
        have hfits := hfit.length_le (List.forall_mem_map.2 fun _ _ ↦ rfl) (by simpa using hne)
        rw [List.length_map] at hfits
        rw [hencode] at hfuel' ⊢
        obtain ⟨fuel', rfl, hrest⟩ := length_group_le hfuel'
        rw [decodeGo_of_reads (reads_masterGroup hfits), append_map_assoc]
        rw [append_map_assoc] at hfit
        refine ih (length_le_of_append_map hfuel hne) hrest hfit (runsInOrder_master.1 horder)
      | slave bits rest hne hhead hencode =>
        obtain ⟨hbits, hrestOrder⟩ := (runsInOrder_slave hhead).1 horder
        have hfits := hfit.length_le (List.forall_mem_map.2 fun _ _ ↦ rfl) (by simpa using hne)
        rw [List.length_map] at hfits
        rw [hencode] at hfuel' ⊢
        obtain ⟨fuel', rfl, hrest⟩ := length_group_le hfuel'
        rw [decodeGo_of_reads (reads_slaveGroup hfits hbits), append_map_assoc]
        rw [append_map_assoc] at hfit
        refine ih (length_le_of_append_map hfuel hne) hrest hfit hrestOrder
      | connected c rest hencode =>
        rw [hencode] at hfuel' ⊢
        obtain ⟨fuel', rfl, hrest⟩ := length_group_le hfuel'
        rw [decodeGo_of_reads (reads_connectedGroup _ c),
          List.append_cons already (connected c) rest]
        rw [List.append_cons already (connected c) rest] at hfit
        exact ih (Nat.le_of_succ_le_succ hfuel) hrest hfit (runsInOrder_connected.1 horder)

/-- The slave bits that a group is read as, when they are the ones that were written. -/
theorem inOrder_of_readGroup {already : Nat} (hfits : already + bits.length ≤ maxGbEvents)
    {data rest : Bytes} {group : List GbSerialEvent} (h : readGroup already tagSlave
      (pushVarint (UInt64.ofNat bits.length) ++ data) = .ok (group, rest)) :
    group.length = bits.length ∧ (group = bits.map ofSlave → InOrder 0 bits) := by
  have hcount := toNat_length (Nat.le_trans (Nat.le_add_left _ _) hfits)
  rw [readGroup, if_neg (by decide), if_pos rfl, bind_apply, reads_varint, hcount] at h
  change (if _ then _ else _ : Reader LinkError (List GbSerialEvent)) data = _ at h
  rw [if_neg (by omega)] at h
  obtain ⟨bits', rfl, hlength, horder⟩ := returns_slaveBits _ _ _ _ _ h
  refine ⟨by rw [List.length_map, hlength], fun heq ↦ ?_⟩
  have hinj : Function.Injective ofSlave := fun a b hab ↦ by
    obtain ⟨hcycles, hbit⟩ := GbSerialEvent.slaveBit.inj hab
    exact Prod.ext hcycles hbit
  rwa [← List.map_injective_iff.2 hinj heq]

/-- **Only a log in order is read back.** -/
theorem runsInOrder_of_decodeGo {already : List GbSerialEvent} {fuel fuel' : Nat}
    (hfuel : events.length ≤ fuel) (hfuel' : (encodeGo fuel events).length ≤ fuel')
    (hfit : BitsFit (already ++ events))
    (h : decodeGo fuel' already (encodeGo fuel events) = .ok (already ++ events)) :
    RunsInOrder events := by
  induction fuel generalizing already events fuel' with
  | zero =>
    obtain rfl := List.eq_nil_of_length_eq_zero (Nat.le_zero.1 hfuel)
    exact List.IsChain.nil
  | succ fuel ih =>
    cases events with
    | nil => exact List.IsChain.nil
    | cons event events =>
      have hgroup := firstGroup fuel event events
      generalize event :: events = log at *
      cases hgroup with
      | master bits rest hne hencode =>
        have hfits := hfit.length_le (List.forall_mem_map.2 fun _ _ ↦ rfl) (by simpa using hne)
        rw [List.length_map] at hfits
        rw [hencode] at hfuel' h
        obtain ⟨fuel', rfl, hrest⟩ := length_group_le hfuel'
        rw [decodeGo_of_reads (reads_masterGroup hfits), append_map_assoc] at h
        rw [append_map_assoc] at hfit
        refine runsInOrder_master.2 (ih (length_le_of_append_map hfuel hne) hrest hfit h)
      | slave bits rest hne hhead hencode =>
        have hfits := hfit.length_le (List.forall_mem_map.2 fun _ _ ↦ rfl) (by simpa using hne)
        rw [List.length_map] at hfits
        rw [hencode] at hfuel' h
        obtain ⟨fuel', rfl, hrest⟩ := length_group_le hfuel'
        -- What is read first has to be the bits of the run, and it is in order.
        have hbits : InOrder 0 bits := by
          rw [decodeGo_cons, List.append_assoc] at h
          cases hread : readGroup already.length tagSlave
              (pushVarint (UInt64.ofNat bits.length) ++
                (pushSlaveBits 0 bits ++ encodeGo fuel rest)) with
          | error e => rw [hread] at h; cases h
          | ok r =>
            obtain ⟨hlength, horder⟩ := inOrder_of_readGroup hfits hread
            rw [hread] at h
            have hle := (stable_readGroup _ _).length_le hread
            have hread : r.2.length ≤ fuel' := by
              simp only [List.length_cons, List.length_append] at hle hfuel'
              omega
            obtain ⟨⟨more, hmore⟩, -⟩ := (decoding hread).spec h
            rw [List.append_assoc] at hmore
            have hboth := List.append_cancel_left hmore
            exact horder (List.append_inj_left hboth (by rw [List.length_map, hlength])).symm
        rw [decodeGo_of_reads (reads_slaveGroup hfits hbits), append_map_assoc] at h
        rw [append_map_assoc] at hfit
        refine (runsInOrder_slave hhead).2 ⟨hbits, ih (length_le_of_append_map hfuel hne) hrest hfit h⟩
      | connected c rest hencode =>
        rw [hencode] at hfuel' h
        obtain ⟨fuel', rfl, hrest⟩ := length_group_le hfuel'
        rw [decodeGo_of_reads (reads_connectedGroup _ c),
          List.append_cons already (connected c) rest] at h
        rw [List.append_cons already (connected c) rest] at hfit
        exact runsInOrder_connected.2 (ih (Nat.le_of_succ_le_succ hfuel) hrest hfit h)

/-- What is read has its bits in the first events. -/
theorem bitsFit_of_decode (h : decode data = .ok events) : BitsFit events :=
  ((decoding (Nat.le_refl _)).spec h).2 (bitsFit_of_length_le (Nat.zero_le _))

theorem decode_encode_iff (hfit : BitsFit events) :
    decode (encode events) = .ok events ↔ RunsInOrder events :=
  ⟨fun h ↦ @runsInOrder_of_decodeGo events [] _ _ (Nat.le_refl _) (Nat.le_refl _) hfit h,
    fun h ↦ @decodeGo_encodeGo events [] _ _ (Nat.le_refl _) (Nat.le_refl _) hfit h⟩

/-- The packed bits that `readGroup` looks at are there. -/
theorem packed_in_bounds {e : LinkError} {count n : Nat} {packed rest : Bytes} (hn : n < count)
    (h : takeBytes e ((count + 7) / 8) data = .ok (packed, rest)) : n / 8 < packed.length := by
  rw [takeBytes] at h
  split at h
  · cases h
    rw [List.length_take_of_le ‹_›]
    omega
  · cases h

/-- **The codec of serial events**: at most `maxGbEvents` events are read back if within each run of
slave bits the cycles do not decrease; reading any bytes comes to an end, with the packed bits in
bounds; and what is read is read back, once it is written again, if and only if it is in order. -/
theorem serialEvents_spec :
    (∀ events : List GbSerialEvent, events.length ≤ maxGbEvents → RunsInOrder events →
      decode (encode events) = .ok events) ∧
    (∀ data : Bytes, Decoding [] data (decode data)) ∧
    (∀ (e : LinkError) (count n : Nat) (data packed rest : Bytes), n < count →
      takeBytes e ((count + 7) / 8) data = .ok (packed, rest) → n / 8 < packed.length) ∧
    (∀ (data : Bytes) (events : List GbSerialEvent), decode data = .ok events →
      (decode (encode events) = .ok events ↔ RunsInOrder events)) :=
  ⟨fun _ hlength horder ↦ (decode_encode_iff (bitsFit_of_length_le hlength)).2 horder,
    fun _ ↦ decoding (Nat.le_refl _), fun _ _ _ _ _ _ hn h ↦ packed_in_bounds hn h,
    fun _ _ h ↦ decode_encode_iff (bitsFit_of_decode h)⟩

/-- A plugged cable, two slave bits at once and a master bit are read back, and so is what was read. -/
theorem serialEvents_spec_four :
    let events := [connected true, slaveBit 7 true, slaveBit 7 false, masterBit true]
    decode (encode events) = .ok events ∧ (decode (encode events) = .ok events ↔ RunsInOrder events) := by
  have horder : RunsInOrder [connected true, slaveBit 7 true, slaveBit 7 false, masterBit true] :=
    runsInOrder_connected.2 ((@runsInOrder_slave [(7, true), (7, false)] [masterBit true]
      fun event h ↦ by cases h; rfl).2 ⟨⟨by decide, by decide, trivial⟩, List.IsChain.singleton _⟩)
  have hback := serialEvents_spec.1 _ (by decide) horder
  exact ⟨hback, serialEvents_spec.2.2.2 _ _ hback⟩

/-- **Two groups in a row**: bits after 100 cycles and, in a group of their own, after 50.  They are
written as one group, in which the distance saturates at zero. -/
theorem decode_out_of_order :
    decode [2, 1, 100, 0, 2, 1, 50, 0] = .ok [slaveBit 100 false, slaveBit 50 false] ∧
      decode (encode [slaveBit 100 false, slaveBit 50 false]) =
        .ok [slaveBit 100 false, slaveBit 100 false] := by
  decide +kernel

end GbSerialEvents

end SuperShuckie
