import CrumbleCracker.Oci.Verified

/-!
# The store's archives are those of their blobs

The programs that publish archives and eStargz indices keep the store right. An archive made from a cached blob is that
of its digest. One made while its layer streams is published before the digest is known: from then on the watch's window
is open, until the digest has been found right or the archive is gone (`ok_validateStreamed`).
-/

namespace CrumbleCracker.Oci

open Place Dialog List Option

section Archive

variable {f : Formats} {root : Place} {digest : Text} {d : Disk} {m : Watch} {layer : Descriptor}

/-- What the body of an archive is known to be: of a stream, what the partial file holds, and else the blob. -/
def Held (f : Formats) (root : Place) (digest : Text) (m : Watch) (d : Disk) (body : Bytes) : Prop :=
  (m.stream = true → d (partialPath f root digest) = some body) ∧ (m.stream = false → HasDigest f body digest)

variable {body : Bytes}

theorem Held.frame {d' : Disk} (h : Held f root digest m d body)
    (hd : d' (partialPath f root digest) = d (partialPath f root digest)) : Held f root digest m d' body :=
  ⟨fun hs => hd.trans (h.1 hs), h.2⟩

/-- The program reads the body of an archive: it writes no more than the partial file. -/
def Reads (f : Formats) (root : Place) (digest : Text) (m : Watch) (readBody : Host (Option Bytes)) : Prop :=
  ∀ d, Inv f root digest d m → (m.stream = true → d (partialPath f root digest) = some []) →
    Ok f root digest readBody (fun r s => ∃ d', s = (d', m) ∧ Inv f root digest d' m ∧
      (∀ q, q ≠ partialPath f root digest → d' q = d q) ∧ ∀ body, r = some body → Held f root digest m d' body) (d, m)

theorem reads_blob (hm : m.stream = false) {blob : Bytes} (hb : HasDigest f blob digest) :
    Reads f root digest m (return some blob) := fun d hi _ =>
  ⟨d, rfl, hi, fun _ _ => rfl, fun _ h => some.inj h ▸ ⟨fun hs => (Bool.noConfusion (hm.symm.trans hs)), fun _ => hb⟩⟩

/-- What a call leaves that writes one private file, which holds `data` if it did. -/
def Filled (f : Formats) (root : Place) (digest : Text) (m : Watch) (d : Disk) (p : Place) (done : Prop) (data : Bytes)
    (s : Disk × Watch) : Prop :=
  ∃ d', s = (d', m) ∧ Inv f root digest d' m ∧ (∀ q, q ≠ p → d' q = d q) ∧ (done → d' p = some data)

theorem ok_create_excl (hi : Inv f root digest d m) {p : Place} (hp : Private f root p) :
    Ok f root digest (Os.create p .excl) (fun ok => Filled f root digest m d p (ok = true) []) (d, m) := by
  refine ok_call (guard_blind hi fun _ _ h => h) ?_
  rintro ok d' (⟨rfl, rfl⟩ | ⟨rfl, -, rfl⟩) -
  · exact ⟨_, rfl, hi, fun _ _ => rfl, nofun⟩
  · exact ⟨_, rfl, hi.put hp _, fun _ hq => Disk.put_of_ne d _ hq, fun _ => Disk.put_self _ _ _⟩

theorem ok_write (hv : Valid digest) (hi : Inv f root digest d m) {p : Place} (hp : Private f root p)
    (hd : d p = some []) (data : Bytes) :
    Ok f root digest (Os.append p data) (fun k => Filled f root digest m d p (k = data.length) data) (d, m) := by
  refine (ok_append hi hv hp data).weaken ?_
  rintro k _ ⟨-, rfl⟩
  refine ⟨_, rfl, hi.put hp _, fun _ hq => Disk.put_of_ne d _ hq, fun hk => ?_⟩
  rw [Disk.put_self, hd, hk, take_length]
  rfl

variable {readBody : Host (Option Bytes)}

section Write

variable {n mediaType : Text}

/-- A file of a temporary directory of archives. -/
def tempFile (root : Place) (n t : Text) : Place := root ++ [layerArchiveDirName, n, t]

/-- The archive of a body is in a temporary directory. -/
def Drafted (f : Formats) (root : Place) (n mediaType : Text) (d : Disk) (body : Bytes) : Prop :=
  ∃ ix ct, d (tempFile root n layerIndexName) = some ix ∧ d (tempFile root n layerContentsName) = some ct ∧
    f.layerArchive mediaType body = some (ix, ct)

/-- What `writeLayerArchive` leaves: with a result, the body's archive. -/
def Wrote (f : Formats) (root : Place) (digest : Text) (m : Watch) (n mediaType : Text) (r : Option Bytes)
    (s : Disk × Watch) : Prop :=
  ∃ d', s = (d', m) ∧ Inv f root digest d' m ∧
    ∀ body, r = some body → Held f root digest m d' body ∧ Drafted f root n mediaType d' body

theorem Wrote.none (hi : Inv f root digest d m) : Wrote f root digest m n mediaType none (d, m) :=
  ⟨d, rfl, hi, nofun⟩

theorem ok_writeLayerArchive (hv : Valid digest) (hn : '.' ∈ n) (hr : Reads f root digest m readBody)
    (hi : Inv f root digest d m) (hd : m.stream = true → d (partialPath f root digest) = some []) :
    Ok f root digest (writeLayerArchive f (tempFile root n layerIndexName) (tempFile root n layerContentsName) mediaType
      readBody) (Wrote f root digest m n mediaType) (d, m) := by
  have hp : ∀ t, Private f root (tempFile root n t) := fun t => private_dotted hn _
  have hne : ∀ t, tempFile root n t ≠ partialPath f root digest :=
    fun t => by simp [hv.partialPath_eq, tempFile]
  have hic : tempFile root n layerIndexName ≠ tempFile root n layerContentsName := by
    simp [tempFile, layerIndexName, layerContentsName]
  refine (ok_create_excl hi (hp layerIndexName)).bind ?_
  rintro ok _ ⟨d₁, rfl, hi₁, hd₁, hix₁⟩
  refine wp_ite (fun hok => (ok_create_excl hi₁ (hp layerContentsName)).bind ?_) fun _ => .none hi₁
  rintro ok' _ ⟨d₂, rfl, hi₂, hd₂, hct₂⟩
  refine wp_ite (fun hok' => (hr d₂ hi₂ fun hs => ?_).bind ?_) fun _ => .none hi₂
  · rw [hd₂ _ (hne _).symm, hd₁ _ (hne _).symm, hd hs]
  rintro r _ ⟨d₃, rfl, hi₃, hd₃, hheld⟩
  cases r with
  | none => exact .none hi₃
  | some body =>
    dsimp only
    split
    · exact .none hi₃
    · next ix ct harch =>
      have hix₃ : d₃ (tempFile root n layerIndexName) = some [] := by rw [hd₃ _ (hne _), hd₂ _ hic, hix₁ hok]
      have hct₃ : d₃ (tempFile root n layerContentsName) = some [] := by rw [hd₃ _ (hne _), hct₂ hok']
      refine (ok_write hv hi₃ (hp _) hct₃ ct).bind ?_
      rintro k _ ⟨d₄, rfl, hi₄, hd₄, hct₄⟩
      have hix₄ : d₄ (tempFile root n layerIndexName) = some [] := by rw [hd₄ _ hic, hix₃]
      refine wp_ite (fun hk => (ok_write hv hi₄ (hp _) hix₄ ix).bind ?_) fun _ => .none hi₄
      rintro l _ ⟨d₅, rfl, hi₅, hd₅, hix₅⟩
      refine wp_ite (fun hl => (ok_close hi₅ (.inr (hne _))).bind ?_) fun _ => .none hi₅
      rintro a _ rfl
      refine wp_ite (fun _ => (ok_close hi₅ (.inr (hne _))).bind ?_) fun _ => .none hi₅
      rintro b _ rfl
      refine wp_ite (fun _ => ⟨d₅, rfl, hi₅, fun body' h => ?_⟩) fun _ => .none hi₅
      cases h
      refine ⟨(hheld body rfl).frame ?_, ix, ct, hix₅ hl, ?_, harch⟩
      · rw [hd₅ _ (hne _).symm, hd₄ _ (hne _).symm]
      · rw [hd₅ _ hic.symm, hct₄ hk]

end Write

variable {r : Option Bytes}

section Publish

/-- What an archive's writer leaves. A stream's archive that was published opens the window. -/
structure Published (f : Formats) (root : Place) (digest : Text) (m : Watch) (r : Option Bytes)
    (s : Disk × Watch) : Prop where
  inv : Inv f root digest s.1 s.2
  written : s.2.writing = false
  stream : s.2.stream = m.stream
  closed : r = none ∨ m.stream = false → s.2.window = false
  held : m.stream = true → ∀ body, r = some body → s.1 (partialPath f root digest) = some body ∧
    (s.2.window = true → ArchiveOf f root s.1 digest body)

theorem Published.same (hs : Settled f root digest d m)
    (hr : m.stream = true → ∀ body, r = some body → d (partialPath f root digest) = some body) :
    Published f root digest m r (d, m) :=
  ⟨hs.inv, hs.written, rfl, fun _ => hs.closed, fun hm body h =>
    ⟨hr hm body h, fun hw => Bool.noConfusion (hs.closed.symm.trans hw)⟩⟩

theorem Published.none (hs : Settled f root digest d m) : Published f root digest m none (d, m) :=
  .same hs nofun

theorem ArchiveOf.sound (h : ArchiveOf f root d digest body) (hb : HasDigest f body digest) :
    ArchiveSound f root d digest := by
  obtain ⟨mediaType, h⟩ := h
  exact fun ix ct hix hct => ⟨body, mediaType, hb, h ix ct hix hct⟩

theorem ArchiveOf.mono {d' : Disk} (h : ArchiveOf f root d digest body) (hd : ∀ r, Spared d d' r) :
    ArchiveOf f root d' digest body := by
  obtain ⟨mediaType, h⟩ := h
  exact ⟨mediaType, fun ix ct hix hct => h ix ct ((hd _).some hix) ((hd _).some hct)⟩

variable {mediaType : Text}

theorem Drafted.moved {n : Text} (h : Drafted f root n mediaType d body) :
    ArchiveOf f root (d.moved (root ++ [layerArchiveDirName, n]) (layerArchiveDir f root digest)) digest body := by
  obtain ⟨ix, ct, hix, hct, harch⟩ := h
  refine ⟨mediaType, fun ix' ct' hix' hct' => ?_⟩
  rw [layerIndexPath, moved_append, append_assoc] at hix'
  rw [layerContentsPath, moved_append, append_assoc] at hct'
  have heix : ix = ix' := some.inj (hix.symm.trans hix')
  have hect : ct = ct' := some.inj (hct.symm.trans hct')
  rw [harch, heix, hect]

variable {n : Text}

theorem ok_cachedLayerArchiveAvailable (hv : Valid layer.digest) (hs : Settled f root layer.digest d m) :
    Ok f root layer.digest (cachedLayerArchiveAvailable f root layer) (fun _ s => s = (d, m)) (d, m) := by
  have hne : layerContentsPath f root layer.digest ≠ partialPath f root layer.digest := by
    rw [hv.layerContentsPath_eq, hv.partialPath_eq]
    simp
  refine (ok_readFile hs _).bind ?_
  rintro a _ ⟨rfl, -⟩
  cases a with
  | none => rfl
  | some index =>
    refine wp_ite (fun _ => (ok_stat hs (.inr hne)).bind ?_) fun _ => rfl
    rintro b _ ⟨rfl, -⟩
    cases b <;> rfl

theorem partial_outside (hv : Valid digest) (n : Text) :
    ¬root ++ [layerArchiveDirName, n] <+: partialPath f root digest := by
  rw [hv.partialPath_eq]
  exact not_prefix_of_ne (by decide) _

theorem ok_rename_archive (hv : Valid digest) (hn : '.' ∈ n) (hs : Settled f root digest d m)
    (hh : Held f root digest m d body) (hdraft : Drafted f root n mediaType d body) :
    Ok f root digest (Os.rename (root ++ [layerArchiveDirName, n]) (layerArchiveDir f root digest))
      (fun ok s => (ok = false ∧ s = (d, m)) ∨ (ok = true ∧ Published f root digest m (some body) s)) (d, m) := by
  have hnp : root ++ [layerArchiveDirName, n] ≠ partialPath f root digest := fun h => partial_outside hv n (by rw [h])
  have hkeep : d.moved (root ++ [layerArchiveDirName, n]) (layerArchiveDir f root digest) (partialPath f root digest) =
      d (partialPath f root digest) := by
    refine moved_of_outside d (partial_outside hv n) ?_
    rw [hv.layerArchiveDir_eq]
    exact partial_outside hv _
  refine ok_call (guard_blind hs.inv fun _ _ h => h) ?_
  rintro ok d' (⟨rfl, rfl⟩ | ⟨rfl, -, -, rfl⟩) -
  · exact .inl ⟨rfl, by rw [Watch.step, if_neg (by simp), if_neg fun h => hnp h.1]⟩
  · refine .inr ⟨rfl, ?_⟩
    cases hm : m.stream with
    | true =>
      rw [Watch.step, if_pos ⟨hm, rfl, rfl⟩]
      refine ⟨hs.inv.publish_archive hv hn rfl (by simp), hs.written, rfl, ?_, ?_⟩
      · rintro (h | h)
        · cases h
        · exact Bool.noConfusion (hm.symm.trans h)
      · rintro - b hb
        cases hb
        exact ⟨hkeep.trans (hh.1 hm), fun _ => hdraft.moved⟩
    | false =>
      rw [Watch.step, if_neg fun h => Bool.noConfusion (hm.symm.trans h.1), if_neg fun h => hnp h.1]
      refine .same ⟨?_, hs.written, hs.closed⟩ fun h => Bool.noConfusion (hm.symm.trans h)
      exact hs.inv.publish_archive hv hn rfl fun _ => hdraft.moved.sound (hh.2 hm)

theorem ok_publishArchive (hv : Valid layer.digest) (hn : '.' ∈ n) (hs : Settled f root layer.digest d m)
    (hh : Held f root layer.digest m d body) (hdraft : Drafted f root n mediaType d body) :
    Ok f root layer.digest (publishArchive f root layer (root ++ [layerArchiveDirName, n]) body)
      (Published f root layer.digest m) (d, m) := by
  refine (ok_rename_archive hv hn hs hh hdraft).bind ?_
  rintro ok s (⟨rfl, rfl⟩ | ⟨rfl, hp⟩)
  · refine wp_ite (nofun) fun _ => (ok_cachedLayerArchiveAvailable hv hs).bind ?_
    rintro known _ rfl
    exact wp_ite (fun _ => .same hs fun hm b hb => some.inj hb ▸ hh.1 hm) fun _ => .none hs
  · exact wp_ite (fun _ => hp) fun h => absurd rfl h

theorem Published.removeAll (hv : Valid digest) (hn : '.' ∈ n) {s : Disk × Watch} (h : Published f root digest m r s) :
    Ok f root digest (Os.removeAll (root ++ [layerArchiveDirName, n])) (fun _ => Published f root digest m r) s := by
  have hne : root ++ [layerArchiveDirName, n] ≠ layerArchiveDir f root digest := by
    rw [hv.layerArchiveDir_eq]
    simpa using (hv.ne_of_dot hn).symm
  refine (ok_removeAll h.inv (.inr hne)).weaken ?_
  rintro _ _ ⟨d', rfl, hi', hd'⟩
  refine ⟨hi', h.written, h.stream, h.closed, fun hm body hb => ⟨?_, fun hw => ?_⟩⟩
  · rcases hd' (partialPath f root digest) with heq | ⟨hpre, -⟩
    · exact heq.trans (h.held hm body hb).1
    · exact absurd hpre (partial_outside hv n)
  · exact ((h.held hm body hb).2 hw).mono fun r => (hd' r).imp_right fun h => h.2

theorem ok_mkdirTemp (hi : Inv f root digest d m) (p : Place) (pattern : Text) :
    Ok f root digest (Os.mkdirTemp p pattern) (fun a s => s = (d, m) ∧ ∀ n, a = some n → pattern <+: n) (d, m) := by
  refine ok_call (guard_blind hi fun _ _ h => h) ?_
  rintro a d' ⟨rfl, ha⟩ -
  exact ⟨rfl, fun n h => (ha n h).1⟩

theorem ok_writeLayerArchiveAtomic (hv : Valid layer.digest) (hr : Reads f root layer.digest m readBody)
    (hs : Settled f root layer.digest d m) (hd : m.stream = true → d (partialPath f root layer.digest) = some []) :
    Ok f root layer.digest (writeLayerArchiveAtomic f root layer readBody) (Published f root layer.digest m)
      (d, m) := by
  refine (ok_cachedLayerArchiveAvailable hv hs).bind ?_
  rintro known _ rfl
  refine wp_ite (fun _ => .same hs fun hm b hb => some.inj hb ▸ hd hm) fun _ => (ok_mkdirAll hs.inv _).bind ?_
  rintro made _ rfl
  refine wp_ite (fun _ => (ok_mkdirTemp hs.inv _ _).bind ?_) fun _ => .none hs
  rintro a _ ⟨rfl, ha⟩
  cases a with
  | none => exact .none hs
  | some n =>
    have hn : '.' ∈ n := (ha n rfl).subset (by decide)
    have hdir : (layerArchiveDir f root layer.digest).dir ++ [n] = root ++ [layerArchiveDirName, n] := by
      rw [hv.layerArchiveDir_eq, dir, dropLast_append_of_ne_nil (cons_ne_nil _ _), append_assoc]
      rfl
    have hfile : ∀ t, (layerArchiveDir f root layer.digest).dir ++ [n] ++ [t] = tempFile root n t := fun t => by
      rw [hdir, append_assoc]
      rfl
    dsimp only
    rw [hfile, hfile, hdir]
    refine (ok_writeLayerArchive hv hn hr hs.inv hd).bind ?_
    rintro r _ ⟨d', rfl, hi', hr'⟩
    have hs' : Settled f root layer.digest d' m := ⟨hi', hs.written, hs.closed⟩
    cases r with
    | none => exact ((Published.none hs').removeAll hv hn).bind fun _ _ h => h
    | some body =>
      obtain ⟨hh, hdraft⟩ := hr' body rfl
      exact (ok_publishArchive hv hn hs' hh hdraft).bind fun r _ h => (h.removeAll hv hn).bind fun _ _ h => h

end Publish

section FromBlob

theorem ok_readBlob (hv : Valid digest) (hi : Inv f root digest d .rest) :
    Ok f root digest (Os.readFile (blobPath f root digest))
      (fun r s => s = (d, .rest) ∧ ∀ b, r = some b → HasDigest f b digest) (d, .rest) := by
  refine (ok_readFile ⟨hi, rfl, rfl⟩ _).weaken ?_
  rintro r _ ⟨rfl, hr⟩
  exact ⟨rfl, fun b hb => hi.blob digest hv (fun _ => rfl) b (hr b hb)⟩

theorem Published.atRest {s : Disk × Watch} (h : Published f root digest .rest r s) : AtRest f root digest s := by
  obtain ⟨d, m⟩ := s
  obtain ⟨w, st, o⟩ := m
  obtain ⟨hi, rfl, rfl, hc, -⟩ := h
  cases hc (.inr rfl)
  exact ⟨hi, rfl⟩

theorem calm_archiveOfBlob (hv : Valid layer.digest) {blob : Bytes} (hb : HasDigest f blob layer.digest) :
    Calm f root layer.digest (writeLayerArchiveAtomic f root layer (return some blob)) := fun _ hi =>
  (ok_writeLayerArchiveAtomic hv (reads_blob rfl hb) ⟨hi, rfl, rfl⟩ nofun).weaken fun _ _ h => h.atRest

theorem calm_prepareLayerArchiveFromBlob (hv : Valid layer.digest) :
    Calm f root layer.digest (prepareLayerArchiveFromBlob f root layer) := by
  refine (calm_reading.cachedLayerArchiveAvailable _ _ _).bind fun known => calm_ite (fun _ => calm_done _) fun _ => ?_
  refine fun d hi => (ok_readBlob hv hi).bind ?_
  rintro r _ ⟨rfl, hr⟩
  cases r with
  | none => exact ⟨hi, rfl⟩
  | some blob =>
    refine ((calm_archiveOfBlob hv (hr blob rfl)).bind fun a => ?_) d hi
    cases a with
    | none => exact calm_done _
    | some body => exact (calm_remove _).bind fun _ => calm_done _

theorem calm_prepareStargzLayerFromBlob (hv : Valid layer.digest) :
    Calm f root layer.digest (prepareStargzLayerFromBlob f root layer) := by
  refine (calm_reading.cachedStargzLayerAvailable _ _ _).bind fun known => calm_ite (fun _ => calm_done _) fun _ => ?_
  refine fun d hi => (ok_readBlob hv hi).bind ?_
  rintro r _ ⟨rfl, hr⟩
  cases r with
  | none => exact ⟨hi, rfl⟩
  | some blob =>
    dsimp only
    split
    · exact ⟨hi, rfl⟩
    · exact ⟨hi, rfl⟩
    · next ix hix =>
      refine (ok_mkdirAll hi _).bind ?_
      rintro made _ rfl
      refine wp_ite (fun _ => (ok_mkdirTemp hi _ _).bind ?_) fun _ => ⟨hi, rfl⟩
      rintro a _ ⟨rfl, ha⟩
      cases a with
      | none => exact ⟨hi, rfl⟩
      | some n =>
        have hn : '.' ∈ n := (ha n rfl).subset (by decide)
        have hdir : (stargzLayerDir f root layer.digest).dir ++ [n] = root ++ [stargzLayerDirName, n] := by
          rw [hv.stargzLayerDir_eq, dir, dropLast_append_of_ne_nil (cons_ne_nil _ _), append_assoc]
          rfl
        have hgone : ∀ {β : Type} (e : β), Calm f root layer.digest (do
            let _ ← Os.removeAll (root ++ [stargzLayerDirName, n])
            return e) := fun e => (calm_removeAll _).bind fun _ => calm_done _
        have hp : Private f root (root ++ [stargzLayerDirName, n, layerIndexName]) := private_dotted hn _
        dsimp only
        rw [hdir, append_assoc]
        refine (ok_create_excl hi hp).bind ?_
        rintro ok _ ⟨d₁, rfl, hi₁, -, hd₁⟩
        refine wp_ite (fun hok => (ok_write hv hi₁ hp (hd₁ hok) ix).bind ?_) fun _ => hgone _ d₁ hi₁
        rintro k _ ⟨d₂, rfl, hi₂, -, hd₂⟩
        refine wp_ite (fun hk => ?_) fun _ => hgone _ d₂ hi₂
        refine (ok_rename_rest hi₂ (hi₂.publish_stargz hv hn (hd₂ hk) (hr blob rfl) hix)).bind fun ok' s hs => ?_
        refine hs.calm (calm_ite (fun _ => hgone _) fun _ => ?_)
        exact (calm_reading.cachedStargzLayerAvailable _ _ _).bind fun known =>
          (calm_removeAll _).bind fun _ => calm_ite (fun _ => calm_done _) fun _ => calm_done _

end FromBlob

section Stream

theorem ok_teeBody (hv : Valid digest) (mediaType : Text) (fuel remaining : Nat) {got : Bytes}
    (hi : Inv f root digest d m) (hd : d (partialPath f root digest) = some got) :
    Ok f root digest (teeBody f (partialPath f root digest) mediaType fuel remaining got)
      (fun r s => ∃ d', s = (d', m) ∧ Inv f root digest d' m ∧ (∀ q, q ≠ partialPath f root digest → d' q = d q) ∧
        ∀ body, r = some body → d' (partialPath f root digest) = some body) (d, m) := by
  have hp : Private f root (partialPath f root digest) := hv.private_partialPath
  induction fuel generalizing d remaining got with
  | zero => exact ⟨d, rfl, hi, fun _ _ => rfl, nofun⟩
  | succ fuel ih =>
    refine ((ok_closed hi).boundedRead _).bind ?_
    rintro a _ rfl
    cases a with
    | eof => exact ⟨d, rfl, hi, fun _ _ => rfl, fun _ h => some.inj h ▸ hd⟩
    | failed c => exact ⟨d, rfl, hi, fun _ _ => rfl, nofun⟩
    | data b =>
      refine (ok_append hi hv hp b).bind ?_
      rintro k _ ⟨-, rfl⟩
      have hi' := hi.put hp ((d (partialPath f root digest)).map fun x => x ++ b.take k)
      have hq : ∀ q, q ≠ partialPath f root digest → d.put (partialPath f root digest)
          ((d (partialPath f root digest)).map fun x => x ++ b.take k) q = d q := fun q h => Disk.put_of_ne d _ h
      refine wp_ite (fun hk => wp_ite (fun _ => ?_) fun _ => (ih _ hi' ?_).weaken ?_) fun _ => ?_
      · exact ⟨_, rfl, hi', hq, nofun⟩
      · rw [Disk.put_self, hd, hk, map_some, take_length]
      · rintro r _ ⟨d', rfl, hi'', hd', hr⟩
        exact ⟨d', rfl, hi'', fun q h => (hd' q h).trans (hq q h), hr⟩
      · exact ⟨_, rfl, hi', hq, nofun⟩

theorem reads_teeBody (hv : Valid digest) (hm : m.stream = true) (mediaType : Text) (fuel remaining : Nat) :
    Reads f root digest m (teeBody f (partialPath f root digest) mediaType fuel remaining []) := by
  refine fun d hi hd => (ok_teeBody hv mediaType fuel remaining hi (hd hm)).weaken ?_
  rintro r _ ⟨d', rfl, hi', hd', hr⟩
  exact ⟨d', rfl, hi', hd', fun body h => ⟨fun _ => hr body h, fun h => Bool.noConfusion (hm.symm.trans h)⟩⟩

theorem Inv.congr (hi : Inv f root digest d m) {w : Watch} (hw : w.writing = m.writing) (ho : w.window = m.window) :
    Inv f root digest d w :=
  ⟨fun e he h => hi.blob e he fun heq => hw ▸ h heq, fun e he h => hi.archive e he fun heq => ho ▸ h heq, hi.stargz⟩

theorem ok_stat_stream (hv : Valid digest) (hi : Inv f root digest d m) :
    Ok f root digest (Os.stat (partialPath f root digest)) (fun _ s => s = (d, { m with stream := false })) (d, m) := by
  refine ok_call (guard_blind hi fun e he h => (hv.private_partialPath : Private f root _) e he ?_) ?_
  · rcases h with h | h <;> rw [h] <;> simp [places]
  · rintro a d' ⟨rfl, -⟩ -
    rw [Watch.step, if_pos rfl]

theorem ok_close_stream (hi : Inv f root digest d m) :
    Ok f root digest (Os.close (partialPath f root digest)) (fun _ s => s = (d, { m with stream := false }))
      (d, m) := by
  refine ok_call (guard_blind hi fun _ _ h => h) ?_
  rintro a d' rfl -
  rw [Watch.step, if_pos rfl]

/-- The removal of the archive closes the window. -/
theorem ok_discard (hi : Inv f root digest d m) (hw : m.writing = false) (hs : m.stream = false) :
    Ok f root digest (Os.removeAll (layerArchiveDir f root digest)) (fun _ => AtRest f root digest) (d, m) := by
  obtain ⟨w, st, o⟩ := m
  cases hw
  cases hs
  cases o with
  | false => exact calm_removeAll _ d hi
  | true =>
    refine ok_call (guard_blind hi fun _ _ h => h) fun ok d' hd hall => ?_
    have hok : ok = true := hall rfl rfl
    have hi' := hi.removeAll hd.1
    subst hok
    refine ⟨⟨fun e he h => hi'.blob e he h, fun e he _ => ?_, hi'.stargz⟩, by rw [Watch.step, if_pos ⟨rfl, rfl⟩]; rfl⟩
    by_cases heq : e = digest
    · have hgone : d' (layerIndexPath f root digest) = none := hd.2 rfl _ (prefix_append _ _)
      intro ix ct hix
      rw [heq] at hix
      cases hgone.symm.trans hix
    · exact hi'.archive e he fun h => absurd h heq

theorem ok_discardArchive (hi : Inv f root layer.digest d m) (hw : m.writing = false) (hs : m.stream = false)
    (e : Failure) :
    Ok f root layer.digest (discardArchive f root layer e) (fun _ => AtRest f root layer.digest) (d, m) :=
  (ok_discard hi hw hs).bind fun _ _ h => h

theorem ok_rename_stream (hv : Valid digest) (hi : Inv f root digest d m) (hw : m.writing = false)
    (hs : m.stream = false)
    (hrest : Inv f root digest d .rest) (hd : d (partialPath f root digest) = some body)
    (hb : HasDigest f body digest) :
    Ok f root digest (Os.rename (partialPath f root digest) (blobPath f root digest))
      (fun _ => AtRest f root digest) (d, m) := by
  obtain ⟨w, st, o⟩ := m
  cases hw
  cases hs
  have hstep : ∀ ok : Bool, Watch.step f root digest ⟨false, false, o⟩
      (.rename (partialPath f root digest) (blobPath f root digest)) ok = .rest := fun ok => by
    simp [Watch.step, Watch.rest]
  refine ok_call (guard_blind hi fun _ _ h => h) fun ok d' hd' _ => ⟨?_, hstep ok⟩
  rcases hd' with ⟨-, rfl⟩ | ⟨-, -, -, rfl⟩
  · exact hrest
  · exact hrest.publish_blob hv (by decide) (hv.partialPath_eq f root) hd hb

/-- The window is open from the archive's rename to the end of the checks, and no longer. -/
theorem ok_validateStreamed (hv : Valid layer.digest) (hi : Inv f root layer.digest d m) (hw : m.writing = false)
    (hd : d (partialPath f root layer.digest) = some body)
    (ha : m.window = true → ArchiveOf f root d layer.digest body) :
    Ok f root layer.digest (validateStreamed f root layer body) (fun _ => AtRest f root layer.digest) (d, m) := by
  have hi' : Inv f root layer.digest d { m with stream := false } := hi.congr rfl rfl
  refine (ok_close_stream hi).bind ?_
  rintro ok _ rfl
  refine wp_ite (fun _ => (ok_stat_stream hv hi').bind ?_) fun _ => ok_discardArchive hi' hw rfl _
  rintro a _ rfl
  cases a with
  | regular size =>
    refine wp_ite (fun _ => (ok_discard hi' hw rfl).bind fun _ s hs => hs.calm ?_) fun _ =>
      wp_ite (fun _ => (ok_remove hi' _).bind ?_) fun hdig => ?_
    · exact (calm_removeAll _).bind fun _ => calm_done _
    · rintro _ _ (rfl | rfl)
      · exact ok_discardArchive hi' hw rfl _
      · exact ok_discardArchive (hi'.remove _) hw rfl _
    · have hb : HasDigest f body layer.digest := by
        rw [HasDigest]
        exact Bool.not_eq_false _ ▸ hdig
      have hrest : Inv f root layer.digest d .rest := by
        refine ⟨fun e he _ => hi.blob e he fun _ => hw, fun e he _ => ?_, hi.stargz⟩
        by_cases heq : e = layer.digest
        · cases hwin : m.window with
          | true => exact heq ▸ (ha hwin).sound hb
          | false => exact hi.archive e he fun _ => hwin
        · exact hi.archive e he fun h => absurd h heq
      refine (ok_rename_stream hv hi' hw rfl hrest hd hb).bind fun ok s hs => hs.calm ?_
      exact calm_ite (fun _ => (calm_remove _).bind fun _ => calm_done _) fun _ => calm_done _
  | absent | failed | other => exact ok_discardArchive hi' hw rfl _

theorem ok_streamFailure (hv : Valid layer.digest) (hs : Settled f root layer.digest d m) :
    Ok f root layer.digest (streamFailure f root layer) (fun _ => AtRest f root layer.digest) (d, m) := by
  refine (ok_stat_stream hv hs.inv).bind ?_
  rintro a _ rfl
  have hrest : AtRest f root layer.digest (d, { m with stream := false }) := by
    obtain ⟨hi, hw, ho⟩ := hs
    obtain ⟨w, st, o⟩ := m
    cases hw
    cases ho
    exact ⟨hi.congr rfl rfl, rfl⟩
  cases a with
  | regular size => exact wp_ite (fun _ => hrest) fun _ => hrest
  | absent | failed | other => exact hrest

theorem calm_streamLayer (hv : Valid layer.digest) (fuel : Nat) (resp : Response) :
    Calm f root layer.digest (streamLayer f root fuel layer resp) := by
  refine calm_ite (fun _ => calm_done _) fun _ d hi => ?_
  have hp : Private f root (partialPath f root layer.digest) := hv.private_partialPath
  refine (ok_create_trunc hi _).bind ?_
  rintro ok _ (⟨rfl, rfl⟩ | ⟨rfl, rfl⟩)
  · exact ⟨hi, rfl⟩
  · have hm : Watch.rest.step f root layer.digest (.create (partialPath f root layer.digest) .trunc) (true : Bool) =
        { Watch.rest with stream := true } := by rw [Watch.step, if_neg fun h => hp.ne_blob hv h.2, if_pos ⟨rfl, rfl⟩]
    rw [hm]
    have hs : Settled f root layer.digest (d.put (partialPath f root layer.digest) (some []))
        { Watch.rest with stream := true } := ⟨(hi.put hp _).congr rfl rfl, rfl, rfl⟩
    refine (ok_writeLayerArchiveAtomic hv (reads_teeBody hv rfl _ _ _) hs fun _ => Disk.put_self _ _ _).bind ?_
    rintro r ⟨d', m'⟩ h
    cases r with
    | none => exact ok_streamFailure hv ⟨h.inv, h.written, h.closed (.inl rfl)⟩
    | some body =>
      obtain ⟨hd, ha⟩ := h.held rfl body rfl
      exact ok_validateStreamed hv h.inv h.written hd ha

end Stream

end Archive

end CrumbleCracker.Oci
