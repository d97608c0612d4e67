import CrumbleCracker.Virtio.PersistentJson

/-!
# Replaying any log

What `replayWAL` makes of arbitrary bytes, over any snapshot.

* `Applies st ds D` : the records `ds`, numbered on from `st` and committed or not, lead to `D`;
* `RecoversTo st ds D` : behind records that are no newer than `st`, such records end at a committed one;
* `replayLoop_spec`, `replayRecords_spec` : the replay finds the longest such records at the front of the log;
* `replayWAL_longest` : the state is theirs, replaying what is left of the log gives it again, and records appended to
  it are replayed.
-/

namespace CrumbleCracker.Virtio

open Framed List

variable {J : Json}

/-- A record that `appendDelta` may write. -/
structure DeltaFits (J : Json) (d : PersistentImageDelta) : Prop where
  version : d.version = persistentImageFormatVersion
  size : (J.delta.marshal d).length ≤ persistentImageMaxMetadata

theorem decodeDelta_marshal {d : PersistentImageDelta} (h : DeltaFits J d) :
    decodeDelta J ⟨d.sequence % 256 ^ 8, J.delta.marshal d⟩ = .ok d := by
  unfold decodeDelta
  simp [J.delta.unmarshal_marshal, h.version]

theorem DeltaFits.isRecord {d : PersistentImageDelta} (h : DeltaFits J d) :
    IsRecord walFormat (decodeDelta J) (encodeDelta J d) d :=
  isRecord_record walFormat (decodeDelta J) h.size (decodeDelta_marshal h)

/-- Bytes in which a scan finds no record: none at all, or something it stops at. -/
def TornTail (J : Json) (tail : Bytes) : Prop :=
  ∀ offset, (scanWAL J offset tail).records = [] ∧
    ((tail = [] ∧ (scanWAL J offset tail).stop = none) ∨ ∃ e, (scanWAL J offset tail).stop = some (offset, e))

theorem applyPersistentImageDelta_sequence {state next : PersistentImageState} {delta : PersistentImageDelta}
    (h : applyPersistentImageDelta state delta = .ok next) : next.sequence = delta.sequence := by
  obtain ⟨nodes, -, rfl⟩ := applyPersistentImageDelta_ok.mp h
  rfl

/-- The records `ds`, numbered on from `st`, lead to `D`. -/
inductive Applies : PersistentImageState → List PersistentImageDelta → PersistentImageState → Prop
  | nil (st) : Applies st [] st
  | cons {st next D d ds} : d.sequence = st.sequence + 1 → applyPersistentImageDelta st d = .ok next →
      Applies next ds D → Applies st (d :: ds) D

def EndsCommitted (ds : List PersistentImageDelta) : Prop := ∀ d, ds.getLast? = some d → d.committed = true

/-- Behind the records that are no newer than `st`, the rest are numbered on from it, lead to `D` and end at a committed
one. -/
def RecoversTo (st : PersistentImageState) (ds : List PersistentImageDelta) (D : PersistentImageState) : Prop :=
  ∃ stale fresh, ds = stale ++ fresh ∧ (∀ d ∈ stale, d.sequence ≤ st.sequence) ∧ Applies st fresh D ∧
    EndsCommitted fresh

variable {ds es : List PersistentImageDelta} {pending rs : List WalRecord} {st D candidate : PersistentImageState}
  {log : List (Bytes × PersistentImageDelta)}

namespace Applies

variable {D' : PersistentImageState} {d : PersistentImageDelta}

theorem append (h : Applies st ds D) (h' : Applies D es D') : Applies st (ds ++ es) D' := by
  induction h with
  | nil st => exact h'
  | cons hseq happly _ ih => exact .cons hseq happly (ih h')

theorem of_append (h : Applies st (ds ++ es) D') : ∃ D, Applies st ds D ∧ Applies D es D' := by
  induction ds generalizing st with
  | nil => exact ⟨st, .nil st, h⟩
  | cons d ds ih =>
    cases h with
    | cons hseq happly hrest =>
      obtain ⟨D, hds, hes⟩ := ih hrest
      exact ⟨D, .cons hseq happly hds, hes⟩

theorem unique (h : Applies st ds D) (h' : Applies st ds D') : D = D' := by
  induction h with
  | nil st => cases h'; rfl
  | cons _ happly _ ih =>
    cases h' with
    | cons _ happly' hrest =>
      obtain rfl := Except.ok.inj (happly.symm.trans happly')
      exact ih hrest

theorem newer (h : Applies st ds D) : ∀ d ∈ ds, st.sequence < d.sequence := by
  induction h with
  | nil st => simp
  | cons hseq happly _ ih =>
    refine forall_mem_cons.2 ⟨by omega, fun d hd => ?_⟩
    have := ih d hd
    rw [applyPersistentImageDelta_sequence happly] at this
    omega

end Applies

theorem endsCommitted_nil : EndsCommitted [] := by
  intro d hd
  cases hd

theorem EndsCommitted.append_right (h : EndsCommitted (ds ++ es)) : EndsCommitted es := by
  intro d hd
  exact h d (by rw [getLast?_append, hd]; rfl)

theorem EndsCommitted.eq_nil (h : EndsCommitted (rs.map Prod.snd))
    (hopen : ∀ p ∈ rs, p.2.committed = false) : rs = [] := by
  by_contra hne
  have hlast := h _ (by rw [getLast?_map, getLast?_eq_some_getLast hne]; rfl)
  rw [hopen _ (getLast_mem hne)] at hlast
  cases hlast

theorem EndsCommitted.append (hds : EndsCommitted ds) (hes : EndsCommitted es) : EndsCommitted (ds ++ es) := by
  intro d hd
  rw [getLast?_append] at hd
  cases hlast : es.getLast? with
  | none =>
    rw [hlast] at hd
    exact hds d hd
  | some e =>
    rw [hlast] at hd
    cases hd
    exact hes _ hlast

@[simp] theorem Discard.offset_lower (d : Discard) (offset : Nat) (reason : DiscardReason) :
    (d.lower offset reason).offset = min d.offset offset := by
  unfold Discard.lower
  split
  · exact (Nat.min_eq_right (Nat.le_of_lt ‹_›)).symm
  · exact (Nat.min_eq_left (Nat.le_of_not_lt ‹_›)).symm

/-- `k` of the records are replayed: they lead to `D`, they are the longest such ones that end at a committed record,
and the log is cut behind them unless nothing is left. -/
structure Replayed (st : PersistentImageState) (rs : List WalRecord) (d : Discard) (r : Replay) (k : Nat) : Prop where
  bound : k ≤ rs.length
  applies : Applies st ((rs.take k).map Prod.snd) r.state
  committed : EndsCommitted ((rs.take k).map Prod.snd)
  longest : ∀ m D, m ≤ rs.length → Applies st ((rs.take m).map Prod.snd) D →
    EndsCommitted ((rs.take m).map Prod.snd) → m ≤ k
  sequence : r.sequence = r.state.sequence
  cut : r.discard.offset = min d.offset ((rs[k]?.map Prod.fst).getD d.offset)

variable {d : Discard}

/-- Records replayed behind a group that is committed. -/
theorem Replayed.append {mid : PersistentImageState} {group : List WalRecord} {r : Replay} {k : Nat}
    (h : Replayed mid rs d r k) (hgroup : Applies st (group.map Prod.snd) mid)
    (hcommitted : EndsCommitted (group.map Prod.snd)) : Replayed st (group ++ rs) d r (group.length + k) := by
  refine ⟨?_, ?_, ?_, ?_, h.sequence, ?_⟩
  · rw [length_append]
    exact Nat.add_le_add_left h.bound _
  · rw [take_length_add_append, map_append]
    exact hgroup.append h.applies
  · rw [take_length_add_append, map_append]
    exact hcommitted.append h.committed
  · intro m D hm happlies hends
    by_cases hin : m ≤ group.length
    · omega
    · obtain ⟨j, rfl⟩ : ∃ j, m = group.length + j := ⟨m - group.length, by omega⟩
      rw [take_length_add_append, map_append] at happlies hends
      obtain ⟨mid', hmid, hrest⟩ := happlies.of_append
      obtain rfl := hgroup.unique hmid
      rw [length_append] at hm
      have := h.longest j D (by omega) hrest hends.append_right
      omega
  · rw [h.cut, getElem?_append_right (Nat.le_add_right _ _), Nat.add_sub_cancel_left]

variable {r : WalRecord}

/-- The loop stops within the records `pending ++ rs` of which `pending` are applied and none is committed. -/
theorem replayed_none {goff : Nat} {reason : DiscardReason} (hpending : Applies st (pending.map Prod.snd) candidate)
    (hopen : ∀ p ∈ pending, p.2.committed = false) (hgoff : (pending ++ r :: rs).head?.map Prod.fst = some goff)
    (hstop : r.2.sequence = candidate.sequence + 1 → ∀ next, applyPersistentImageDelta candidate r.2 ≠ .ok next) :
    Replayed st (pending ++ r :: rs) d ⟨st, st.sequence, d.lower goff reason⟩ 0 := by
  refine ⟨Nat.zero_le _, .nil st, endsCommitted_nil, ?_, rfl, ?_⟩
  · intro m D hm happlies hcommitted
    by_contra hpos
    by_cases hin : m ≤ pending.length
    · -- The last of them would be pending, and so not committed.
      rw [take_append_of_le_length hin] at hcommitted
      rcases take_eq_nil_iff.1 (hcommitted.eq_nil fun p hp => hopen p (mem_of_mem_take hp)) with rfl | rfl
      · exact hpos (Nat.le_refl 0)
      · exact hpos hin
    · obtain ⟨j, rfl⟩ : ∃ j, m = pending.length + (j + 1) := ⟨m - pending.length - 1, by omega⟩
      rw [take_length_add_append, map_append, take_succ_cons, map_cons] at happlies
      obtain ⟨mid, hmid, hrest⟩ := happlies.of_append
      obtain rfl := hpending.unique hmid
      cases hrest with
      | cons hseq happly _ => exact hstop hseq _ happly
  · rw [Discard.offset_lower]
    congr 1
    rw [← head?_eq_getElem?, hgoff]
    rfl

theorem replayLoop_spec (goff : Nat) (d : Discard) (hpending : Applies st (pending.map Prod.snd) candidate)
    (hopen : ∀ p ∈ pending, p.2.committed = false) (hgoff : (pending ++ rs).head?.map Prod.fst = some goff ∨ rs = [])
    (hlast : EndsCommitted ((pending ++ rs).map Prod.snd)) :
    ∃ k, Replayed st (pending ++ rs) d (replayLoop rs st st.sequence candidate goff d) k := by
  induction rs generalizing st candidate pending goff with
  | nil =>
    rw [append_nil] at hlast
    obtain rfl := hlast.eq_nil hopen
    refine ⟨0, Nat.le_refl 0, .nil st, endsCommitted_nil, fun m D hm _ _ => hm, rfl, ?_⟩
    unfold replayLoop
    simp
  | cons r rs ih =>
    have hgoff' : (pending ++ r :: rs).head?.map Prod.fst = some goff := hgoff.resolve_right (by simp)
    unfold replayLoop
    by_cases hseq : r.2.sequence = candidate.sequence + 1
    · rw [if_neg (not_not.mpr hseq)]
      cases happly : applyPersistentImageDelta candidate r.2 with
      | error e =>
        exact ⟨0, replayed_none hpending hopen hgoff' fun _ next => by rw [happly]; simp⟩
      | ok next =>
        have hstep : Applies st ((pending ++ [r]).map Prod.snd) next := by
          rw [map_append]
          exact hpending.append (.cons hseq happly (.nil next))
        have hassoc : pending ++ r :: rs = pending ++ [r] ++ rs := by simp
        by_cases hcommitted : r.2.committed = true
        · simp only [hcommitted, if_true]
          have hhead : ([] ++ rs).head?.map Prod.fst = some ((rs.head?.map Prod.fst).getD goff) ∨ rs = [] := by
            cases rs with
            | nil => exact .inr rfl
            | cons r' rs => exact .inl rfl
          rw [hassoc, map_append] at hlast
          obtain ⟨k, hk⟩ := ih ((rs.head?.map Prod.fst).getD goff) (.nil next) (by simp) hhead hlast.append_right
          rw [nil_append] at hk
          rw [hassoc, ← applyPersistentImageDelta_sequence happly]
          exact ⟨_, hk.append hstep (by rw [map_append]; intro e he; simp at he; rwa [← he])⟩
        · simp only [hcommitted, Bool.false_eq_true, if_false]
          rw [hassoc]
          refine ih goff hstep (forall_mem_append.2 ⟨hopen, forall_mem_singleton.2 ?_⟩) (.inl (hassoc ▸ hgoff'))
            (hassoc ▸ hlast)
          simpa using hcommitted
    · rw [if_pos hseq]
      exact ⟨0, replayed_none hpending hopen hgoff' fun h => absurd h hseq⟩

/-! ## All records of a log -/

theorem lastIdx?_append {α : Type} (p : α → Bool) (as bs : List α) :
    lastIdx? p (as ++ bs) = match lastIdx? p bs with
      | some i => some (as.length + i)
      | none => lastIdx? p as := by
  induction as with
  | nil => cases h : lastIdx? p bs <;> simp [lastIdx?, h]
  | cons a as ih =>
    rw [cons_append, lastIdx?, ih]
    cases lastIdx? p bs with
    | none => rfl
    | some i => simp only [length_cons, Option.some.injEq]; omega

theorem lastIdx?_eq_none {α : Type} {p : α → Bool} {as : List α} : lastIdx? p as = none ↔ ∀ a ∈ as, p a = false := by
  induction as with
  | nil => simp [lastIdx?]
  | cons a as ih =>
    rw [lastIdx?, forall_mem_cons, ← ih]
    cases lastIdx? p as <;> cases p a <;> simp

theorem lastIdx?_spec {α : Type} {p : α → Bool} {as : List α} {i : Nat} (h : lastIdx? p as = some i) :
    i < as.length ∧ (∀ a, as[i]? = some a → p a = true) ∧ ∀ j a, as[j]? = some a → p a = true → j ≤ i := by
  induction as generalizing i with
  | nil => cases h
  | cons a as ih =>
    unfold lastIdx? at h
    cases hrest : lastIdx? p as with
    | some i' =>
      rw [hrest] at h
      cases h
      obtain ⟨hlt, hhere, hlast⟩ := ih hrest
      refine ⟨by simpa using hlt, fun b hb => hhere b (by simpa using hb), fun j b hb hp => ?_⟩
      cases j with
      | zero => omega
      | succ j => exact Nat.succ_le_succ (hlast j b (by simpa using hb) hp)
    | none =>
      rw [hrest] at h
      simp only at h
      split at h
      · rename_i hp
        cases h
        refine ⟨by simp, fun b hb => ?_, fun j b hb hpb => ?_⟩
        · obtain rfl : a = b := by simpa using hb
          exact hp
        · cases j with
          | zero => exact Nat.le_refl 0
          | succ j =>
            exact absurd hpb (by rw [lastIdx?_eq_none.1 hrest b (mem_of_getElem? (by simpa using hb))]; simp)
      · cases h

section Records

/-- The cut of a log whose records are all older than the snapshot: everything goes. -/
def staleCut (stale : List WalRecord) (d : Discard) : Discard :=
  match stale.head? with
  | some r => d.lower r.1 .uncommitted
  | none => d

theorem newer_committed {m : Nat} (hm : m + 1 ≤ rs.length) (happlies : Applies st ((rs.take (m + 1)).map Prod.snd) D)
    (hends : EndsCommitted ((rs.take (m + 1)).map Prod.snd)) :
    ∃ r, rs[m]? = some r ∧ (decide (st.sequence < r.2.sequence) && r.2.committed) = true := by
  have hlast : rs[m]? = some (rs.get ⟨m, hm⟩) := getElem?_eq_getElem hm
  refine ⟨_, hlast, ?_⟩
  have htake : rs.take (m + 1) = rs.take m ++ [rs.get ⟨m, hm⟩] := take_succ_eq_append_getElem hm
  rw [htake, map_append] at happlies hends
  have hnewer := happlies.newer (rs.get ⟨m, hm⟩).2 (by simp)
  have hcommitted := hends (rs.get ⟨m, hm⟩).2 (by simp)
  rw [decide_eq_true hnewer, hcommitted]
  rfl

/-- What is replayed of the first `i + 1` records is all that is, when no later one is newer and committed. -/
theorem Replayed.of_take {d' : Discard} {r : Replay} {i k : Nat} (h : Replayed st (rs.take (i + 1)) d' r k)
    (hsorted : rs.Pairwise fun a b => a.1 < b.1) (hi : i < rs.length)
    (hd : d'.offset = min d.offset ((rs[i + 1]?.map Prod.fst).getD d.offset))
    (hlatest : ∀ m D, m + 1 ≤ rs.length → Applies st ((rs.take (m + 1)).map Prod.snd) D →
      EndsCommitted ((rs.take (m + 1)).map Prod.snd) → m ≤ i) :
    Replayed st rs d r k := by
  have hk : k ≤ i + 1 := by
    have := h.bound
    rw [length_take] at this
    omega
  have htake : (rs.take (i + 1)).take k = rs.take k := by rw [take_take, Nat.min_eq_left hk]
  refine ⟨by omega, htake ▸ h.applies, htake ▸ h.committed, ?_, h.sequence, ?_⟩
  · intro m D hm happlies hends
    cases m with
    | zero => exact Nat.zero_le k
    | succ m =>
      have hmi := hlatest m D hm happlies hends
      have htake' : (rs.take (i + 1)).take (m + 1) = rs.take (m + 1) := by rw [take_take, Nat.min_eq_left (by omega)]
      exact h.longest (m + 1) D (by rw [length_take]; omega) (htake'.symm ▸ happlies) (htake'.symm ▸ hends)
  · rw [h.cut, hd]
    by_cases hend : k = i + 1
    · subst hend
      have hnone : (rs.take (i + 1))[i + 1]? = none := getElem?_eq_none (length_take_le _ _)
      rw [hnone]
      simp
    · have hlt : k < rs.length := by omega
      have hbefore : ∀ q, rs[i + 1]? = some q → rs[k].1 < q.1 := by
        intro q hq
        obtain ⟨hlen, rfl⟩ := List.getElem?_eq_some_iff.mp hq
        exact pairwise_iff_getElem.mp hsorted k (i + 1) hlt hlen (by omega)
      rw [getElem?_take_of_lt (by omega), getElem?_eq_getElem hlt]
      cases hq : rs[i + 1]? with
      | none => simp
      | some q =>
        have := hbefore q hq
        simp only [Option.map_some, Option.getD_some]
        omega

theorem replayRecords_stale (h : ∀ r ∈ rs, r.2.sequence ≤ st.sequence) (d : Discard) :
    replayRecords rs st st.sequence d = ⟨st, st.sequence, staleCut rs d⟩ := by
  have hold : ∀ r ∈ rs, (decide (st.sequence < r.2.sequence)) = false := fun r hr => by simpa using h r hr
  have hfirst : firstPostSnapshot st.sequence rs = none := findIdx?_eq_none_iff.mpr hold
  have hlast : lastCommitted st.sequence rs = none := lastIdx?_eq_none.2 fun r hr => by rw [hold r hr]; rfl
  rw [replayRecords, hfirst, hlast]
  cases rs <;> rfl

/-- Of records that start with one newer than the snapshot, the longest that end at a committed one are replayed. -/
theorem replayRecords_fresh {stale : List WalRecord} (hstale : ∀ p ∈ stale, p.2.sequence ≤ st.sequence)
    (hr : st.sequence < r.2.sequence) (hsorted : (r :: rs).Pairwise fun a b => a.1 < b.1) (d : Discard) :
    ∃ k, Replayed st (r :: rs) d (replayRecords (stale ++ r :: rs) st st.sequence d) k := by
  have hold : ∀ p ∈ stale, (decide (st.sequence < p.2.sequence)) = false := fun p hp => by simpa using hstale p hp
  have hfirst : firstPostSnapshot st.sequence (stale ++ r :: rs) = some stale.length := by
    unfold firstPostSnapshot
    rw [findIdx?_append, findIdx?_eq_none_iff.mpr hold, findIdx?_cons]
    simp [hr]
  have hlast : lastCommitted st.sequence (stale ++ r :: rs) =
      (lastIdx? (fun p : WalRecord => decide (st.sequence < p.2.sequence) && p.2.committed) (r :: rs)).map
        (stale.length + ·) := by
    have hnone : lastIdx? (fun p : WalRecord => decide (st.sequence < p.2.sequence) && p.2.committed) stale = none :=
      lastIdx?_eq_none.2 fun p hp => by rw [hold p hp]; rfl
    unfold lastCommitted
    rw [lastIdx?_append, hnone]
    cases lastIdx? _ (r :: rs) <;> rfl
  have hat : ∀ i, (stale ++ r :: rs)[stale.length + i]? = (r :: rs)[i]? := fun i => by
    rw [getElem?_append_right (Nat.le_add_right _ _), Nat.add_sub_cancel_left]
  unfold replayRecords
  rw [hfirst, hlast]
  cases hidx : lastIdx? (fun p : WalRecord => decide (st.sequence < p.2.sequence) && p.2.committed) (r :: rs) with
  | none =>
    have hnone := lastIdx?_eq_none.1 hidx
    refine ⟨0, Nat.zero_le _, .nil st, endsCommitted_nil, fun m D hm happlies hends => ?_, rfl, ?_⟩
    · cases m with
      | zero => exact Nat.le_refl 0
      | succ m =>
        obtain ⟨p, hp, hcommitted⟩ := newer_committed hm happlies hends
        rw [hnone p (mem_of_getElem? hp)] at hcommitted
        cases hcommitted
    · simp only [Option.map_none, discardUncommitted]
      rw [show stale.length = stale.length + 0 from rfl, hat 0]
      simp
  | some i =>
    obtain ⟨hi, hhere, hlatest⟩ := lastIdx?_spec hidx
    have hgroup : ((stale ++ r :: rs).take (stale.length + i + 1)).drop stale.length = (r :: rs).take (i + 1) := by
      rw [Nat.add_assoc, take_length_add_append, drop_left]
    have hends : EndsCommitted (((r :: rs).take (i + 1)).map Prod.snd) := by
      rw [take_succ_eq_append_getElem hi, map_append]
      intro e he
      have hcommitted := hhere _ (getElem?_eq_getElem hi)
      simp only [map_cons, map_nil, getLast?_append, getLast?_singleton, Option.some_or,
        Option.some.injEq] at he
      rw [← he]
      exact (Bool.and_eq_true _ _ ▸ hcommitted).2
    simp only [Option.map_some, if_neg (show ¬stale.length + i < stale.length by omega), hgroup]
    have hnil : ∀ p ∈ ([] : List WalRecord), p.2.committed = false := by simp
    obtain ⟨k, hk⟩ := replayLoop_spec ((((r :: rs).take (i + 1)).head?.map Prod.fst).getD 0)
      (discardUncommitted (stale ++ r :: rs) (some stale.length) (some (stale.length + i)) d) (.nil st) hnil
      (.inl rfl) hends
    rw [nil_append] at hk
    refine ⟨k, hk.of_take hsorted hi ?_ ?_⟩
    · simp only [discardUncommitted, if_neg (show ¬stale.length + i < stale.length by omega), Nat.add_assoc, hat]
      cases (r :: rs)[i + 1]? with
      | none => simp
      | some q => simp
    · intro m D hm happlies hends
      obtain ⟨p, hp, hcommitted⟩ := newer_committed hm happlies hends
      exact hlatest m p hp hcommitted

end Records

/-! ## Any bytes -/

/-- The records of `ds` from the first one newer than `st` on. -/
def freshFrom (st : PersistentImageState) (ds : List PersistentImageDelta) : List PersistentImageDelta :=
  ds.dropWhile fun d => d.sequence ≤ st.sequence

theorem recoversTo_iff : RecoversTo st ds D ↔ Applies st (freshFrom st ds) D ∧ EndsCommitted (freshFrom st ds) := by
  unfold freshFrom
  constructor
  · rintro ⟨stale, fresh, rfl, hstale, happlies, hends⟩
    have hfresh : (stale ++ fresh).dropWhile (fun d => decide (d.sequence ≤ st.sequence)) = fresh := by
      rw [dropWhile_append_of_pos fun d hd => by simpa using hstale d hd]
      cases fresh with
      | nil => rfl
      | cons d fresh =>
        have := happlies.newer d mem_cons_self
        exact dropWhile_cons_of_neg (by simpa using this)
    rw [hfresh]
    exact ⟨happlies, hends⟩
  · rintro ⟨happlies, hends⟩
    refine ⟨_, _, (takeWhile_append_dropWhile ..).symm, fun d hd => ?_, happlies, hends⟩
    simpa using mem_takeWhile_imp hd

theorem RecoversTo.unique {D' : PersistentImageState} (h : RecoversTo st ds D) (h' : RecoversTo st ds D') : D = D' :=
  (recoversTo_iff.mp h).1.unique (recoversTo_iff.mp h').1

/-- `n` of the records are the longest that lead somewhere. -/
structure Longest (st : PersistentImageState) (ds : List PersistentImageDelta) (n : Nat) (D : PersistentImageState) :
    Prop where
  bound : n ≤ ds.length
  recovers : RecoversTo st (ds.take n) D
  longest : ∀ m D', m ≤ ds.length → RecoversTo st (ds.take m) D' → m ≤ n

theorem longest_stale (h : ∀ d ∈ ds, d.sequence ≤ st.sequence) : Longest st ds ds.length st :=
  ⟨Nat.le_refl _, ⟨ds, [], by simp, h, .nil st, endsCommitted_nil⟩, fun _ _ hm _ => hm⟩

theorem longest_fresh {stale : List PersistentImageDelta} {replay : Replay} {k : Nat}
    (hstale : ∀ e ∈ stale, e.sequence ≤ st.sequence) (hr : st.sequence < r.2.sequence)
    (h : Replayed st (r :: rs) d replay k) :
    Longest st (stale ++ (r :: rs).map Prod.snd) (stale.length + k) replay.state := by
  have hfresh : ∀ m, freshFrom st ((stale ++ (r :: rs).map Prod.snd).take (stale.length + m)) =
      ((r :: rs).take m).map Prod.snd := by
    intro m
    unfold freshFrom
    rw [take_length_add_append, dropWhile_append_of_pos fun e he => by simpa using hstale e he, ← map_take]
    cases m with
    | zero => rfl
    | succ m => exact dropWhile_cons_of_neg (by simpa using hr)
  refine ⟨?_, ?_, ?_⟩
  · rw [length_append, length_map]
    exact Nat.add_le_add_left h.bound _
  · rw [recoversTo_iff, hfresh]
    exact ⟨h.applies, h.committed⟩
  · intro m D hm hrecovers
    by_cases hin : m ≤ stale.length
    · omega
    · obtain ⟨j, rfl⟩ : ∃ j, m = stale.length + j := ⟨m - stale.length, by omega⟩
      rw [recoversTo_iff, hfresh] at hrecovers
      rw [length_append, length_map] at hm
      have := h.longest j D (by omega) hrecovers.1 hrecovers.2
      omega

theorem exists_stale (st : PersistentImageState) (log : List (Bytes × PersistentImageDelta)) :
    ∃ stale rest, log = stale ++ rest ∧ (∀ r ∈ stale, r.2.sequence ≤ st.sequence) ∧
      ∀ r ∈ rest.head?, st.sequence < r.2.sequence := by
  refine ⟨_, _, (takeWhile_append_dropWhile (p := fun r => r.2.sequence ≤ st.sequence)).symm, fun r hr => ?_,
    fun r hr => ?_⟩
  · simpa using mem_takeWhile_imp hr
  · have := head?_dropWhile_not (fun r => decide (r.2.sequence ≤ st.sequence)) log
    rw [Option.mem_def.1 hr] at this
    simpa using this

/-- A log of records, and a rest without one: how much is replayed, and where the log is cut. Without any record newer
than the snapshot everything is cut. -/
theorem replayWAL_log {tail : Bytes} (hlog : ∀ r ∈ log, IsRecord walFormat (decodeDelta J) r.1 r.2)
    (htail : TornTail J tail) (st : PersistentImageState) :
    ∃ n p D discard, replayWAL J (log.flatMap Prod.fst ++ tail) st st.sequence = ⟨D, D.sequence, discard⟩ ∧
      Longest st (log.map Prod.snd) n D ∧ p ≤ log.length ∧ RecoversTo st ((log.take p).map Prod.snd) D ∧
      ((∃ r ∈ log, st.sequence < r.2.sequence) → p = n) ∧ ((∀ r ∈ log, r.2.sequence ≤ st.sequence) → p = 0) ∧
      discard.offset = ((log.take p).flatMap Prod.fst).length := by
  obtain ⟨hnone, hstop⟩ := htail (0 + (log.flatMap Prod.fst).length)
  have hscan : scanWAL J 0 (log.flatMap Prod.fst ++ tail) =
      ⟨recordsFrom 0 log, (scanWAL J (0 + (log.flatMap Prod.fst).length) tail).stop⟩ := by
    have hrecords : (scan walFormat (decodeDelta J) (0 + (log.flatMap Prod.fst).length) tail).records = [] := hnone
    rw [scanWAL, scan_log hlog, hrecords, append_nil]
    rfl
  -- Without a newer record, the scan alone would keep the whole records.
  have hoff : (Discard.ofScan (log.flatMap Prod.fst ++ tail).length
      (scanWAL J (0 + (log.flatMap Prod.fst).length) tail).stop).offset = (log.flatMap Prod.fst).length := by
    rcases hstop with ⟨rfl, hstop⟩ | ⟨e, hstop⟩
    · rw [hstop, append_nil]
      rfl
    · rw [hstop, Nat.zero_add]
      rfl
  unfold replayWAL
  simp only [hscan]
  generalize Discard.ofScan (log.flatMap Prod.fst ++ tail).length
    (scanWAL J (0 + (log.flatMap Prod.fst).length) tail).stop = d at hoff
  obtain ⟨stale, rest, hsplit, hstale, hhead⟩ := exists_stale st log
  subst hsplit
  have hstale' : ∀ (offset : Nat), ∀ r ∈ recordsFrom offset stale, r.2.sequence ≤ st.sequence := by
    intro offset r hr
    have hmem : r.2 ∈ stale.map Prod.snd := recordsFrom_snd offset stale ▸ mem_map_of_mem hr
    obtain ⟨q, hq, heq⟩ := mem_map.mp hmem
    exact heq ▸ hstale q hq
  cases rest with
  | nil =>
    rw [append_nil] at *
    rw [replayRecords_stale (hstale' 0)]
    refine ⟨_, 0, st, _, rfl, longest_stale ?_, Nat.zero_le _, ⟨[], [], rfl, by simp, .nil st, endsCommitted_nil⟩, ?_,
      fun _ => rfl, ?_⟩
    · intro e he
      obtain ⟨q, hq, rfl⟩ := mem_map.mp he
      exact hstale q hq
    · rintro ⟨r, hr, hnewer⟩
      exact absurd hnewer (Nat.not_lt.mpr (hstale r hr))
    · cases stale with
      | nil => exact hoff
      | cons r stale => exact (Discard.offset_lower d 0 .uncommitted).trans (Nat.min_eq_right (Nat.zero_le _))
  | cons r rest =>
    rw [recordsFrom_append]
    have hsorted := (pairwise_recordsFrom (fun q hq => (hlog q (mem_append_right _ hq)).length_pos)
      (0 + (stale.flatMap Prod.fst).length)).2
    have hr := hhead r rfl
    have hcons : recordsFrom (0 + (stale.flatMap Prod.fst).length) (r :: rest) =
      (0 + (stale.flatMap Prod.fst).length, r.2) ::
        recordsFrom (0 + (stale.flatMap Prod.fst).length + r.1.length) rest := rfl
    rw [hcons] at hsorted ⊢
    obtain ⟨k, hk⟩ := replayRecords_fresh (hstale' 0) hr hsorted d
    have hlongest := longest_fresh (forall_mem_map.mpr hstale) hr hk
    rw [← hcons, recordsFrom_snd, ← map_append, length_map] at hlongest
    rw [← hcons] at hk ⊢
    refine ⟨_, _, _, _, by rw [← hk.sequence], hlongest, by simpa using hlongest.bound, ?_, fun _ => rfl,
      fun hold => ?_, ?_⟩
    · rw [map_take]
      exact hlongest.recovers
    · exact absurd hr (Nat.not_lt.2 (hold r (by simp)))
    · have htotal : ((r :: rest).flatMap Prod.fst).length =
          (((r :: rest).take k).flatMap Prod.fst).length + (((r :: rest).drop k).flatMap Prod.fst).length := by
        rw [← length_append, ← flatMap_append, take_append_drop]
      rw [hk.cut, hoff, getElem?_recordsFrom, take_length_add_append, flatMap_append, flatMap_append,
        length_append, length_append, htotal]
      cases hget : (r :: rest)[k]? with
      | none =>
        have hall : (r :: rest).length ≤ k := List.getElem?_eq_none_iff.mp hget
        rw [drop_of_length_le hall]
        simp
      | some q =>
        simp only [Option.map_some, Option.getD_some]
        omega

theorem Applies.sequence_le (h : Applies st ds D) : st.sequence ≤ D.sequence := by
  induction h with
  | nil st => exact Nat.le_refl _
  | cons hseq happly _ ih =>
    rw [applyPersistentImageDelta_sequence happly] at ih
    omega

theorem RecoversTo.append {next : PersistentImageState} (h : RecoversTo st ds D) (happlies : Applies D es next)
    (hends : EndsCommitted es) : RecoversTo st (ds ++ es) next := by
  obtain ⟨stale, fresh, rfl, hstale, hfresh, hfresh'⟩ := h
  exact ⟨stale, fresh ++ es, append_assoc .., hstale, hfresh.append happlies, hfresh'.append hends⟩

theorem Longest.eq_all {n : Nat} {D' : PersistentImageState} (h : Longest st ds n D') (hall : RecoversTo st ds D) :
    n = ds.length ∧ D' = D := by
  have hn : n = ds.length := Nat.le_antisymm h.bound (h.longest _ D (Nat.le_refl _) (by rwa [take_length]))
  have hrecovers := h.recovers
  rw [hn, take_length] at hrecovers
  exact ⟨hn, hrecovers.unique hall⟩

/-- A log all of whose records lead to `D` is replayed to `D`, and kept if one of them is newer than the snapshot. -/
theorem replayWAL_recovers {tail : Bytes} (hlog : ∀ r ∈ log, IsRecord walFormat (decodeDelta J) r.1 r.2)
    (htail : TornTail J tail) (h : RecoversTo st (log.map Prod.snd) D) :
    ∃ discard, replayWAL J (log.flatMap Prod.fst ++ tail) st st.sequence = ⟨D, D.sequence, discard⟩ ∧
      ((∃ r ∈ log, st.sequence < r.2.sequence) → discard.offset = (log.flatMap Prod.fst).length) ∧
      ((∀ r ∈ log, r.2.sequence ≤ st.sequence) → discard.offset = 0) := by
  obtain ⟨n, p, D', discard, hrun, hlongest, -, -, hp, hzero, hcut⟩ := replayWAL_log hlog htail st
  obtain ⟨rfl, rfl⟩ := hlongest.eq_all h
  refine ⟨discard, hrun, fun hnewer => ?_, fun hold => ?_⟩
  · rw [hcut, hp hnewer, length_map, take_length]
  · rw [hcut, hzero hold]
    rfl

theorem tornTail_nil (J : Json) : TornTail J [] := fun _ => ⟨rfl, .inl ⟨rfl, rfl⟩⟩

theorem Applies.sequence_lt {bound : Nat} (h : Applies st ds D) (hst : st.sequence < bound)
    (hds : ∀ d ∈ ds, d.sequence < bound) : D.sequence < bound := by
  induction h with
  | nil st => exact hst
  | cons _ happly _ ih =>
    obtain ⟨hd, hrest⟩ := forall_mem_cons.1 hds
    exact ih (by rw [applyPersistentImageDelta_sequence happly]; exact hd) hrest

/-- **Any bytes, any snapshot.** The log is records and a rest that does not start with one. The replay yields what the
longest records at its front lead to; replaying what it keeps of the log yields that again, and cuts nothing more unless
all that is left are records no newer than the snapshot; and records appended to what it keeps are replayed. The numbers
of the records leave room for a next one, so none of them comes round. -/
theorem replayWAL_longest (J : Json) (wal : Bytes) (st : PersistentImageState) (hst : st.sequence < 2 ^ 64)
    (hnumbers : ∀ r ∈ (scanWAL J 0 wal).records, r.2.sequence + 1 < 2 ^ 64) :
    ∃ (log : List (Bytes × PersistentImageDelta)) (tail : Bytes) (n : Nat) (D : PersistentImageState) (kept : Bytes),
      wal = log.flatMap Prod.fst ++ tail ∧ (∀ r ∈ log, IsRecord walFormat (decodeDelta J) r.1 r.2) ∧
      NoRecord walFormat (decodeDelta J) tail ∧ Longest st (log.map Prod.snd) n D ∧ D.sequence < 2 ^ 64 ∧
      (replayWAL J wal st st.sequence).state = D ∧ (replayWAL J wal st st.sequence).sequence = D.sequence ∧
      kept = wal.take (replayWAL J wal st st.sequence).discard.offset ∧ (replayWAL J kept st st.sequence).state = D ∧
      ((kept = [] ∨ ∃ r ∈ log.take n, st.sequence < r.2.sequence) →
        (replayWAL J kept st st.sequence).discard.offset = kept.length) ∧
      ∀ ds next, ds ≠ [] → (∀ d ∈ ds, DeltaFits J d ∧ d.sequence < 2 ^ 64) → Applies D ds next → EndsCommitted ds →
        next.sequence < 2 ^ 64 ∧ (replayWAL J (kept ++ ds.flatMap (encodeDelta J)) st st.sequence).state = next ∧
        (replayWAL J (kept ++ ds.flatMap (encodeDelta J)) st st.sequence).discard.offset =
          (kept ++ ds.flatMap (encodeDelta J)).length := by
  obtain ⟨log, tail, rfl, hlog, htail⟩ := exists_log walFormat (decodeDelta J) wal
  obtain ⟨n, p, D, discard, hrun, hlongest, hpn, hrecovers, hp, -, hcut⟩ :=
    replayWAL_log hlog (fun _ => htail.scan_eq _) st
  have hkept : (log.flatMap Prod.fst ++ tail).take discard.offset = (log.take p).flatMap Prod.fst := by
    have hbytes : log.flatMap Prod.fst = (log.take p).flatMap Prod.fst ++ (log.drop p).flatMap Prod.fst := by
      rw [← flatMap_append, take_append_drop]
    rw [hcut, hbytes, append_assoc, take_left]
  have hlog' : ∀ r ∈ log.take p, IsRecord walFormat (decodeDelta J) r.1 r.2 := fun r hr =>
    hlog r (mem_of_mem_take hr)
  obtain ⟨discard₂, hreplay, hwhole, -⟩ := replayWAL_recovers hlog' (tornTail_nil J) hrecovers
  rw [append_nil] at hreplay
  rw [hrun]
  have hD : D.sequence < 2 ^ 64 := by
    obtain ⟨stale, fresh, hsplit, -, hfresh, -⟩ := hlongest.recovers
    refine hfresh.sequence_lt hst fun d hd => Nat.lt_of_succ_lt ?_
    have hmem : d ∈ log.map Prod.snd := mem_of_mem_take (i := n) (by rw [hsplit]; exact mem_append_right _ hd)
    have hscanned : d ∈ (scanWAL J 0 (log.flatMap Prod.fst ++ tail)).records.map Prod.snd := by
      rw [scanWAL, scan_log hlog, map_append, recordsFrom_snd]
      exact mem_append_left _ hmem
    obtain ⟨r, hr, rfl⟩ := mem_map.1 hscanned
    exact hnumbers r hr
  refine ⟨log, tail, n, D, _, rfl, hlog, htail, hlongest, hD, rfl, rfl, hkept.symm, by rw [hreplay], ?_, ?_⟩
  · rintro (hempty | ⟨r, hr, hnewer⟩)
    · rw [hempty]
      rfl
    · obtain rfl := hp ⟨r, mem_of_mem_take hr, hnewer⟩
      rw [hreplay, hwhole ⟨r, hr, hnewer⟩]
  · intro ds next hne hfits happlies hends
    have hmore : ∀ r ∈ log.take p ++ ds.map fun d => (encodeDelta J d, d),
        IsRecord walFormat (decodeDelta J) r.1 r.2 := by
      refine forall_mem_append.2 ⟨hlog', forall_mem_map.2 fun d hd => ?_⟩
      exact (hfits d hd).1.isRecord
    have hbytes : (log.take p ++ ds.map fun d => (encodeDelta J d, d)).flatMap Prod.fst =
        (log.take p).flatMap Prod.fst ++ ds.flatMap (encodeDelta J) := by
      rw [flatMap_append, flatMap_map]
    have hall : RecoversTo st ((log.take p ++ ds.map fun d => (encodeDelta J d, d)).map Prod.snd) next := by
      rw [map_append, map_map]
      simpa [Function.comp_def] using hrecovers.append happlies hends
    obtain ⟨discard', hreplay', hwhole', -⟩ := replayWAL_recovers hmore (tornTail_nil J) hall
    rw [append_nil, hbytes] at hreplay'
    rw [hreplay']
    refine ⟨happlies.sequence_lt hD fun d hd => (hfits d hd).2, rfl, (hwhole' ?_).trans (by rw [hbytes])⟩
    obtain ⟨d, hd⟩ := exists_mem_of_ne_nil ds hne
    refine ⟨(encodeDelta J d, d), mem_append_right _ (mem_map_of_mem hd), ?_⟩
    obtain ⟨stale, fresh, -, -, hfresh, -⟩ := hrecovers
    exact Nat.lt_of_le_of_lt hfresh.sequence_le (happlies.newer d hd)

def emptyRecord (sequence : Nat) (committed : Bool) : Bytes :=
  encodeDelta persistentJson { sequence := sequence, committed := committed }

set_option maxRecDepth 100000 in
theorem replayWAL_longest_six : ∃ D, (replayWAL persistentJson (emptyRecord 6 true) { sequence := 5 } 5).state = D ∧
    D.sequence = 6 ∧ D.sequence < 2 ^ 64 := by
  obtain ⟨_, _, _, D, _, -, -, -, -, hD, hstate, -⟩ :=
    replayWAL_longest persistentJson (emptyRecord 6 true) { sequence := 5 } (by decide) (by decide +kernel)
  refine ⟨D, hstate, ?_, hD⟩
  rw [← hstate]
  decide +kernel

set_option maxRecDepth 100000 in
/-- A record that the snapshot has already, with an uncommitted one behind it: the second record is cut, and the next
replay cuts the first one as well. And a record that the snapshot has already stops the replay when it stands behind a
newer one. -/
theorem replay_cuts_again : (replayWAL persistentJson ((emptyRecord 5 true ++ emptyRecord 6 false).take
      (replayWAL persistentJson (emptyRecord 5 true ++ emptyRecord 6 false) { sequence := 5 } 5).discard.offset)
        { sequence := 5 } 5).discard.offset <
      ((emptyRecord 5 true ++ emptyRecord 6 false).take
        (replayWAL persistentJson (emptyRecord 5 true ++ emptyRecord 6 false)
          { sequence := 5 } 5).discard.offset).length ∧
    (replayWAL persistentJson (emptyRecord 6 true ++ emptyRecord 3 true ++ emptyRecord 7 true)
      { sequence := 5 } 5).state.sequence = 6 ∧
    (replayWAL persistentJson (emptyRecord 6 true ++ emptyRecord 7 true) { sequence := 5 } 5).state.sequence = 7 := by
  decide +kernel

end CrumbleCracker.Virtio
