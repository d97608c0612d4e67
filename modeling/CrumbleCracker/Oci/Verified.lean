import CrumbleCracker.Oci.Cached

/-!
# The blobs a store publishes have their digests

`fetchBlob` writes a configuration in place; `cacheLayerBlob` collects a layer in its partial file and renames it once
its digest is right. Both keep the store right at every question they ask.
-/

namespace CrumbleCracker.Oci

open Place Dialog List

section Blob

variable {f : Formats} {root : Place} {digest : Text} {d : Disk} {m : Watch} {p : Place}

/-- A call at rest keeps the store right. -/
def AtRest (f : Formats) (root : Place) (digest : Text) (s : Disk × Watch) : Prop :=
  Inv f root digest s.1 .rest ∧ s.2 = .rest

theorem AtRest.settled {s : Disk × Watch} (h : AtRest f root digest s) :
    s = (s.1, .rest) ∧ Settled f root digest s.1 .rest :=
  ⟨Prod.ext rfl h.2, h.1, rfl, rfl⟩

theorem Private.ne_blob (hp : Private f root p) (hv : Valid digest) : p ≠ blobPath f root digest :=
  fun h => hp digest hv (by rw [h]; exact mem_cons_self)

section

variable (hi : Inv f root digest d m)

include hi

theorem ok_append (hv : Valid digest) (hp : Private f root p) (data : Bytes) : Ok f root digest (Os.append p data)
      (fun n s => n ≤ data.length ∧ s = (d.put p ((d p).map fun b => b ++ data.take n), m)) (d, m) := by
  refine ok_call (guard_blind hi fun _ _ h => h) ?_
  rintro n d' ⟨hn, rfl⟩ -
  exact ⟨hn, by rw [Watch.step, if_neg (hp.ne_blob hv)]⟩

theorem ok_writeAt (off : Int) (data : Bytes) :
    Ok f root digest (Os.writeAt p off data) (fun _ s => (∃ b, s.1 = d.put p b) ∧ s.2 = m) (d, m) := by
  refine ok_call (guard_blind hi fun _ _ h => h) ?_
  rintro n d' ⟨-, rfl⟩ -
  exact ⟨⟨_, rfl⟩, rfl⟩

theorem ok_truncate (n : Int) : Ok f root digest (Os.truncate p n) (fun ok s => (ok = false ∧ s = (d, m)) ∨
      (ok = true ∧ s = (d.put p ((d p).map fun b => truncateTo b n.toNat), m))) (d, m) := by
  refine ok_call (guard_blind hi fun _ _ h => h) ?_
  rintro ok d' (⟨rfl, rfl⟩ | ⟨rfl, rfl⟩) -
  · exact .inl ⟨rfl, rfl⟩
  · exact .inr ⟨rfl, rfl⟩

theorem ok_remove (p : Place) :
    Ok f root digest (Os.remove p) (fun _ s => s = (d, m) ∨ s = (d.put p none, m)) (d, m) := by
  refine ok_call (guard_blind hi fun _ _ h => h) ?_
  rintro ok d' (⟨rfl, rfl⟩ | ⟨rfl, rfl⟩) -
  · exact .inl rfl
  · exact .inr rfl

theorem ok_close (hp : m.stream = false ∨ p ≠ partialPath f root digest) :
    Ok f root digest (Os.close p) (fun _ s => s = (d, m)) (d, m) := by
  refine ok_call (guard_blind hi fun _ _ h => h) ?_
  rintro ok d' rfl -
  exact congrArg (Prod.mk d') (Watch.step_close hp)

end

theorem ok_remove_rest (hi : Inv f root digest d .rest) (p : Place) :
    Ok f root digest (Os.remove p) (fun _ => AtRest f root digest) (d, .rest) := by
  refine (ok_remove hi p).weaken ?_
  rintro _ _ (rfl | rfl)
  · exact ⟨hi, rfl⟩
  · exact ⟨hi.remove p, rfl⟩

theorem Watch.step_rename (hs : m.stream = false) (hw : m.window = false) (p q : Place) (ok : Bool) :
    m.step f root digest (.rename p q) ok = m := by
  obtain ⟨w, s, o⟩ := m
  cases hs
  cases hw
  simp [Watch.step]

theorem ok_rename_rest (hi : Inv f root digest d .rest) {q : Place} (hi' : Inv f root digest (d.moved p q) .rest) :
    Ok f root digest (Os.rename p q) (fun _ => AtRest f root digest) (d, .rest) := by
  refine ok_call (guard_blind hi fun _ _ h => h) fun ok d' hd _ => ⟨?_, Watch.step_rename (m := .rest) rfl rfl _ _ ok⟩
  rcases hd with ⟨-, rfl⟩ | ⟨-, -, -, rfl⟩
  · exact hi
  · exact hi'

theorem ok_create_trunc (hi : Inv f root digest d m) (p : Place) :
    Ok f root digest (Os.create p .trunc) (fun ok s => (ok = false ∧ s = (d, m)) ∨
      (ok = true ∧ s = (d.put p (some []), m.step f root digest (.create p .trunc) (true : Bool)))) (d, m) := by
  refine ok_call (guard_blind hi fun _ _ h => h) ?_
  rintro ok d' (⟨rfl, rfl⟩ | ⟨rfl, rfl⟩) -
  · exact .inl ⟨rfl, by rw [Watch.step, if_neg (by simp), if_neg (by simp)]⟩
  · exact .inr ⟨rfl, rfl⟩

end Blob

section Calm

variable (f : Formats) (root : Place) (digest : Text)

/-- Begun at rest, the program keeps the store right and ends at rest. -/
def Calm {α : Type} (x : Host α) : Prop :=
  ∀ d, Inv f root digest d .rest → Ok f root digest x (fun _ => AtRest f root digest) (d, .rest)

variable {f root digest} {α β : Type} {x y : Host α} {d : Disk} {p : Place}

theorem calm_done (a : α) : Calm f root digest (.done a) := fun _ hi => ⟨hi, rfl⟩

theorem AtRest.calm (hx : Calm f root digest x) {s : Disk × Watch} (hs : AtRest f root digest s) :
    Ok f root digest x (fun _ => AtRest f root digest) s := by
  obtain ⟨heq, hset⟩ := hs.settled
  rw [heq]
  exact hx _ hset.inv

theorem Calm.bind {k : α → Host β} (hx : Calm f root digest x) (hk : ∀ a, Calm f root digest (k a)) :
    Calm f root digest (x >>= k) := fun d hi => (hx d hi).bind fun a _ hs => hs.calm (hk a)

theorem calm_ite {c : Prop} [Decidable c] (hx : c → Calm f root digest x) (hy : ¬c → Calm f root digest y) :
    Calm f root digest (if c then x else y) := fun d hi => wp_ite (fun h => hx h d hi) fun h => hy h d hi

theorem calm_mkdirAll (p : Place) : Calm f root digest (Os.mkdirAll p) :=
  fun _ hi => (ok_mkdirAll hi p).weaken fun _ _ h => h ▸ ⟨hi, rfl⟩

theorem calm_readFile (p : Place) : Calm f root digest (Os.readFile p) :=
  fun _ hi => (ok_readFile ⟨hi, rfl, rfl⟩ p).weaken fun _ _ h => h.1 ▸ ⟨hi, rfl⟩

theorem calm_stat (p : Place) : Calm f root digest (Os.stat p) :=
  fun _ hi => (ok_stat ⟨hi, rfl, rfl⟩ (.inl rfl)).weaken fun _ _ h => h.1 ▸ ⟨hi, rfl⟩

theorem calm_remove (p : Place) : Calm f root digest (Os.remove p) := fun _ hi => ok_remove_rest hi p

theorem calm_close (p : Place) : Calm f root digest (Os.close p) :=
  fun _ hi => (ok_close hi (.inl rfl)).weaken fun _ _ h => h ▸ ⟨hi, rfl⟩

theorem calm_writeAt (hp : Private f root p) (off : Int) (data : Bytes) :
    Calm f root digest (Os.writeAt p off data) := by
  refine fun d hi => (ok_writeAt hi off data).weaken ?_
  rintro _ ⟨_, _⟩ ⟨⟨b, rfl⟩, rfl⟩
  exact ⟨hi.put hp b, rfl⟩

theorem calm_truncate (hp : Private f root p) (n : Int) : Calm f root digest (Os.truncate p n) := by
  refine fun d hi => (ok_truncate hi n).weaken ?_
  rintro _ _ (⟨-, rfl⟩ | ⟨-, rfl⟩)
  · exact ⟨hi, rfl⟩
  · exact ⟨hi.put hp _, rfl⟩

theorem Watch.step_removeAll {m : Watch} (hm : m.window = false ∨ p ≠ layerArchiveDir f root digest) (ok : Bool) :
    m.step f root digest (.removeAll p) ok = m := by
  obtain ⟨w, s, o⟩ := m
  simp only [Watch.step]
  split
  · next h =>
    cases hm.resolve_right fun hne => hne h.2
    rfl
  · rfl

theorem ok_removeAll {m : Watch} (hi : Inv f root digest d m)
    (hm : m.window = false ∨ p ≠ layerArchiveDir f root digest) :
    Ok f root digest (Os.removeAll p) (fun _ s => ∃ d', s = (d', m) ∧ Inv f root digest d' m ∧
      ∀ r, d' r = d r ∨ (p <+: r ∧ d' r = none)) (d, m) :=
  ok_call (guard_blind hi fun _ _ h => h) fun ok d' hd _ =>
    ⟨d', congrArg (Prod.mk d') (Watch.step_removeAll hm ok), hi.removeAll hd.1, hd.1⟩

theorem calm_removeAll (p : Place) : Calm f root digest (Os.removeAll p) := by
  refine fun d hi => (ok_removeAll hi (.inl rfl)).weaken ?_
  rintro _ _ ⟨d', rfl, hi', -⟩
  exact ⟨hi', rfl⟩

theorem calm_reading : Reading fun _ => Calm f root digest where
  done := calm_done
  bind := Calm.bind
  request _ _ := fun _ hi => ((ok_closed hi).request _ _).weaken fun _ _ h => h ▸ ⟨hi, rfl⟩
  body n := fun _ hi => (ok_body hi n).weaken fun _ _ h => h ▸ ⟨hi, rfl⟩
  stat := calm_stat
  readFile := calm_readFile
  readDir _ := fun _ hi => ok_call (guard_blind hi fun _ _ h => h) fun _ _ hd _ => hd ▸ ⟨hi, rfl⟩

end Calm

section FetchBlob

variable {f : Formats} {root : Place} {d : Disk} {m : Watch} {blob : Descriptor}

theorem ok_getRawBlob (hi : Inv f root blob.digest d m) (fuel : Nat) : Ok f root blob.digest (getRawBlob f fuel blob)
      (fun r s => s = (d, m) ∧ ∀ data, r = some data → f.sum256 data = trimSHA256 blob.digest) (d, m) := by
  refine ((ok_closed hi).doRequest _ _ _).bind ?_
  rintro a _ rfl
  cases a with
  | error e => exact ⟨rfl, nofun⟩
  | ok resp =>
    refine wp_ite (fun _ => ⟨rfl, nofun⟩) fun _ => ((ok_closed hi).readBounded _ _ _).bind ?_
    rintro r _ rfl
    cases r with
    | none => exact ⟨rfl, nofun⟩
    | some got =>
      refine wp_ite (fun heq => ⟨rfl, fun data h => ?_⟩) fun _ => ⟨rfl, nofun⟩
      cases h
      exact heq

theorem Valid.hasDigest {digest : Text} (h : Valid digest) {data : Bytes} (hs : f.sum256 data = trimSHA256 digest) :
    HasDigest f data digest := by
  have hlen : shaPrefix.length < digest.length := by
    have := h.length
    rw [sumName, length_drop] at this
    omega
  obtain ⟨t, rfl⟩ := h.prefix_
  rw [trimSHA256, if_pos ⟨prefix_append _ _, hlen⟩, drop_left] at hs
  rw [HasDigest, hs, equalFold]
  exact decide_eq_true rfl

theorem Inv.put_blob {digest : Text} (hv : Valid digest) (hi : Inv f root digest d .rest) {w : Watch}
    {b : Bytes} (hb : w.writing = false → HasDigest f b digest) :
    Inv f root digest (d.put (blobPath f root digest) (some b)) w := by
  have hsame : ∀ e, Valid e → ∀ p ∈ places f root e, p ≠ blobPath f root digest →
      Spared d (d.put (blobPath f root digest) (some b)) p := fun e _ p _ hne => .inl (Disk.put_of_ne d _ hne)
  refine hi.change (fun e he hne p hp => hsame e he p hp fun heq => ?_) (fun hwr x hx => ?_) (fun _ => ?_) ?_
  · have hother : sumName digest ≠ sumName e := fun h => hne (hv.inj he h).symm
    refine not_prefix_place (a := blobsName) he hother hp ?_
    rw [heq, hv.blobPath_eq]
  · rw [Disk.put_self] at hx
    exact Option.some.inj hx ▸ hb hwr
  · refine (hi.archive digest hv fun _ => rfl).mono (hsame digest hv _ (by simp [places]) ?_)
      (hsame digest hv _ (by simp [places]) ?_)
    · rw [hv.layerIndexPath_eq, hv.blobPath_eq]
      simp
    · rw [hv.layerContentsPath_eq, hv.blobPath_eq]
      simp
  · refine (hi.stargz digest hv).mono (hsame digest hv _ (by simp [places]) ?_)
    rw [hv.stargzLayerIndexPath_eq, hv.blobPath_eq]
    simp

/-- From the new empty file to its last byte nothing may stop the call. -/
theorem ok_writeBlob (hv : Valid blob.digest) (hi : Inv f root blob.digest d .rest) {data : Bytes}
    (hdig : HasDigest f data blob.digest) :
    Ok f root blob.digest (writeFile (blobPath f root blob.digest) data) (fun _ => AtRest f root blob.digest)
      (d, .rest) := by
  refine (ok_create_trunc hi _).bind ?_
  rintro ok _ (⟨rfl, rfl⟩ | ⟨rfl, rfl⟩)
  · exact ⟨hi, rfl⟩
  · have hm : Watch.rest.step f root blob.digest (.create (blobPath f root blob.digest) .trunc) (true : Bool) =
        { Watch.rest with writing := true } := by rw [Watch.step, if_pos ⟨rfl, rfl⟩]
    rw [hm]
    have happend : Ok f root blob.digest (Os.append (blobPath f root blob.digest) data)
        (fun _ => AtRest f root blob.digest)
        (d.put (blobPath f root blob.digest) (some []), { Watch.rest with writing := true }) := by
      refine ok_call (guard_blind (hi.put_blob hv (by simp)) fun _ _ h => h) ?_
      rintro n d' ⟨-, rfl⟩ hall
      refine ⟨?_, by rw [Watch.step, if_pos rfl]; rfl⟩
      have hdisk : (d.put (blobPath f root blob.digest) (some [])).put (blobPath f root blob.digest)
          (((d.put (blobPath f root blob.digest) (some [])) (blobPath f root blob.digest)).map
            fun b => b ++ data.take n) = d.put (blobPath f root blob.digest) (some data) := by
        funext q
        rw [Disk.put_self, hall rfl]
        unfold Disk.put
        split <;> simp
      simp only
      rw [hdisk]
      exact hi.put_blob hv fun _ => hdig
    exact happend.bind fun _ s h => h

theorem calm_fetchBlob (hv : Valid blob.digest) (fuel : Nat) :
    Calm f root blob.digest (fetchBlob f root fuel blob) := by
  refine (calm_readFile _).bind fun a => ?_
  cases a with
  | some data => exact calm_done _
  | none =>
    refine fun d hi => (ok_getRawBlob hi fuel).bind ?_
    rintro r _ ⟨rfl, hr⟩
    cases r with
    | none => exact ⟨hi, rfl⟩
    | some data =>
      refine ((calm_mkdirAll _).bind fun ok => calm_ite (fun _ d hi => ?_) fun _ => calm_done _) d hi
      exact (ok_writeBlob hv hi (hv.hasDigest (hr data rfl))).bind fun _ s h => h

end FetchBlob

section Partial

variable {f : Formats} {root : Place} {digest : Text} {d : Disk} {m : Watch} {p : Place} {layer : Descriptor}

variable {hashed : Bytes}

theorem ok_copyBody (hv : Valid digest) (hp : Private f root p) (hi : Inv f root digest d .rest)
    (hd : d p = some hashed) (limit fuel written : Nat) : Ok f root digest (copyBody p limit fuel written hashed)
      (fun r s => AtRest f root digest s ∧ (r.1 ≠ .fatal → s.1 p = some r.2.2)) (d, .rest) := by
  induction fuel generalizing d written hashed with
  | zero => exact ⟨⟨hi, rfl⟩, fun h => absurd rfl h⟩
  | succ fuel ih =>
    refine wp_ite (fun _ => ⟨⟨hi, rfl⟩, fun h => absurd rfl h⟩) fun _ => (ok_body hi _).bind ?_
    rintro a _ rfl
    cases a with
    | data b =>
      refine (ok_append hi hv hp _).bind ?_
      rintro n _ ⟨-, rfl⟩
      refine wp_ite (fun hn => ih (hi.put hp _) ?_ _) fun _ => ⟨⟨hi.put hp _, rfl⟩, fun h => absurd rfl h⟩
      rw [Disk.put_self, hd, hn, Option.map_some, take_length]
    | eof => exact wp_ite (fun _ => ⟨⟨hi, rfl⟩, fun _ => hd⟩) fun _ => ⟨⟨hi, rfl⟩, fun _ => hd⟩
    | failed c =>
      cases c with
      | true => exact ⟨⟨hi, rfl⟩, fun h => absurd rfl h⟩
      | false => exact ⟨⟨hi, rfl⟩, fun _ => hd⟩

theorem truncated_nil (hd : d p = some hashed) :
    (d.put p ((d p).map fun b => truncateTo b (0 : Int).toNat)) p = some [] := by
  rw [Disk.put_self, hd]
  simp [truncateTo]

theorem ok_resumeAt (hp : Private f root p) (hi : Inv f root digest d .rest) (hd : d p = some hashed) (resp : Response)
    (offset : Int) : Ok f root digest (resumeAt layer p resp offset hashed)
      (fun r s => AtRest f root digest s ∧ ∀ x, r = some x → s.1 p = some x.2) (d, .rest) := by
  refine wp_ite (fun _ => (ok_truncate hi _).bind ?_) fun _ => wp_ite (fun _ => (ok_remove_rest hi p).bind ?_) fun _ =>
    ?_
  · rintro ok _ (⟨rfl, rfl⟩ | ⟨rfl, rfl⟩)
    · exact ⟨⟨hi, rfl⟩, nofun⟩
    · refine ⟨⟨hi.put hp _, rfl⟩, fun x h => ?_⟩
      cases h
      exact truncated_nil hd
  · exact fun _ s hs => ⟨hs, nofun⟩
  · refine ⟨⟨hi, rfl⟩, fun x h => ?_⟩
    cases h
    exact hd

/-- Only a partial file of the right digest becomes the blob. -/
theorem ok_downloadPartial (hv : Valid digest) (hl : layer.digest = digest) (hi : Inv f root digest d .rest)
    (hd : d (partialPath f root digest) = some hashed) (fuel : Nat) (restarted : Bool) (offset : Int) :
    Ok f root digest
      (downloadPartial f layer (partialPath f root digest) (blobPath f root digest) fuel restarted offset hashed)
      (fun _ => AtRest f root digest) (d, .rest) := by
  have hp : Private f root (partialPath f root digest) := hv.private_partialPath
  induction fuel generalizing d restarted offset hashed with
  | zero => exact ⟨hi, rfl⟩
  | succ fuel ih =>
    refine wp_ite (fun _ => ((ok_closed hi).doRequest _ _ _).bind ?_) fun _ => wp_ite (fun heq => ?_) fun _ =>
      wp_ite (fun _ => ?_) fun _ => ?_
    · rintro a _ rfl
      cases a with
      | error e => exact wp_ite (fun _ => ih hi hd _ _) fun _ => ⟨hi, rfl⟩
      | ok resp =>
        refine (ok_resumeAt hp hi hd resp offset).bind ?_
        rintro r s ⟨hs, hr⟩
        cases r with
        | none => exact hs
        | some r =>
          obtain ⟨heq, hset⟩ := hs.settled
          rw [heq]
          refine wp_ite (fun _ => ⟨hset.inv, rfl⟩) fun _ => (ok_copyBody hv hp hset.inv (hr r rfl) _ _ _).bind ?_
          rintro ⟨e, written, hashed'⟩ s' ⟨hs', he⟩
          obtain ⟨heq', hset'⟩ := hs'.settled
          rw [heq']
          cases e with
          | complete | retry => exact ih hset'.inv (he (by simp)) _ _
          | fatal => exact ⟨hset'.inv, rfl⟩
    · refine (ok_close hi (.inl rfl)).bind ?_
      rintro ok _ rfl
      refine wp_ite (fun _ => ok_rename_rest hi ?_) fun _ => ⟨hi, rfl⟩
      exact hi.publish_blob hv (by decide) (hv.partialPath_eq f root) hd (hl ▸ heq)
    · refine (ok_truncate hi _).bind ?_
      rintro ok _ (⟨rfl, rfl⟩ | ⟨rfl, rfl⟩)
      · exact ⟨hi, rfl⟩
      · exact ih (hi.put hp _) (truncated_nil hd) _ _
    · exact (ok_remove_rest hi _).bind fun _ _ hs => hs

theorem ok_preparePartialBlob (hp : Private f root p) (hi : Inv f root digest d .rest) :
    Ok f root digest (preparePartialBlob layer p)
      (fun r s => AtRest f root digest s ∧ ∀ b, r = some b → s.1 p = some b) (d, .rest) := by
  have hread : ∀ {d : Disk}, Inv f root digest d .rest → Ok f root digest (Os.readFile p)
      (fun r s => AtRest f root digest s ∧ ∀ b, r = some b → s.1 p = some b) (d, .rest) := by
    intro d hi
    refine (ok_readFile ⟨hi, rfl, rfl⟩ p).weaken ?_
    rintro r _ ⟨rfl, hr⟩
    exact ⟨⟨hi, rfl⟩, hr⟩
  refine (ok_stat ⟨hi, rfl, rfl⟩ (.inl rfl)).bind ?_
  rintro a _ ⟨rfl, -⟩
  cases a with
  | regular size =>
    refine wp_ite (fun _ => (ok_truncate hi _).bind ?_) fun _ => hread hi
    rintro ok _ (⟨rfl, rfl⟩ | ⟨rfl, rfl⟩)
    · exact ⟨⟨hi, rfl⟩, nofun⟩
    · exact hread (hi.put hp _)
  | absent | failed | other => exact ⟨⟨hi, rfl⟩, nofun⟩

theorem ok_create_keep (hi : Inv f root digest d m) (hp : Private f root p) :
    Ok f root digest (Os.create p .keep) (fun _ s => ∃ d', s = (d', m) ∧ Inv f root digest d' m) (d, m) := by
  refine ok_call (guard_blind hi fun _ _ h => h) ?_
  rintro ok d' (⟨rfl, rfl⟩ | ⟨rfl, rfl⟩) -
  · exact ⟨_, rfl, hi⟩
  · exact ⟨_, rfl, hi.put hp _⟩

theorem calm_downloadBlob (hv : Valid layer.digest) (fuel : Nat) :
    Calm f root layer.digest (downloadBlob f root fuel layer) := by
  have hp : Private f root (partialPath f root layer.digest) := hv.private_partialPath
  refine (calm_mkdirAll _).bind fun ok => calm_ite (fun _ d hi => (ok_create_keep hi hp).bind ?_) fun _ => calm_done _
  rintro ok _ ⟨d', rfl, hi'⟩
  refine wp_ite (fun _ => (ok_preparePartialBlob hp hi').bind ?_) fun _ => ⟨hi', rfl⟩
  rintro r s ⟨hs, hr⟩
  obtain ⟨heq, hset⟩ := hs.settled
  cases r with
  | none => exact hs
  | some held =>
    rw [heq]
    exact ok_downloadPartial hv rfl hset.inv (hr held rfl) _ _ _

theorem calm_cacheLayerBlob (hv : Valid layer.digest) (fuel : Nat) :
    Calm f root layer.digest (cacheLayerBlob f root fuel layer) := by
  refine (calm_stat _).bind fun a => ?_
  cases a with
  | regular size =>
    exact calm_ite (fun _ => calm_done _) fun _ => (calm_remove _).bind fun _ =>
      calm_ite (fun _ => calm_downloadBlob hv fuel) fun _ => calm_done _
  | absent | failed | other => exact calm_downloadBlob hv fuel

end Partial

end CrumbleCracker.Oci
