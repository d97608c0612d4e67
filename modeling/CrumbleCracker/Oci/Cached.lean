import CrumbleCracker.Oci.Confined

/-!
# What the store accepts without downloading

`SoundFor` says that all the store has under a digest is right: the blob, and archives and eStargz indices made of the
whole of it. `Looks` are the questions by which a call finds out what is there. A call for a digest may have something
open (`Watch`): a configuration's file that is created and not written, or a streamed layer's archive in its place
before the digest is known. `Inv` is the store being right apart from that, and `Ok` the rule the programs are shown to
keep: `Inv` holds at every question, and nothing is open while the store is looked at.
-/

namespace CrumbleCracker.Oci

open List

open Place Dialog

variable {n : Text}

section Places

variable (f : Formats) (root : Place) {digest other : Text}

def sumName (digest : Text) : Text := digest.drop shaPrefix.length

/-- A digest as `validSHA256Digest` accepts it. -/
def Valid (digest : Text) : Prop := validSHA256Digest digest = true
deriving Decidable

theorem Valid.prefix_ (h : Valid digest) : shaPrefix <+: digest := by
  unfold Valid validSHA256Digest at h
  simp only [Bool.and_eq_true, isPrefixOf_iff_prefix] at h
  exact h.1.1

theorem Valid.length (h : Valid digest) : (sumName digest).length = 64 := by
  unfold Valid validSHA256Digest at h
  simp only [Bool.and_eq_true, decide_eq_true_eq] at h
  rw [sumName, length_drop, h.1.2]
  rfl

theorem Valid.digit (h : Valid digest) {c : Char} (hc : c ∈ sumName digest) :
    (isHexDigit c || ('A' ≤ c && c ≤ 'F')) = true := by
  unfold Valid validSHA256Digest at h
  simp only [Bool.and_eq_true, all_eq_true] at h
  exact h.2 c hc

theorem Valid.inj (h : Valid digest) (h' : Valid other) (he : sumName digest = sumName other) : digest = other := by
  obtain ⟨t, rfl⟩ := h.prefix_
  obtain ⟨t', rfl⟩ := h'.prefix_
  simpa [sumName] using he

theorem Valid.walk_eq (h : Valid digest) (n : Text) :
    (root ++ [n]).walk (digestToFileName f digest) = root ++ [n, sumName digest] := by
  have hno : '/' ∉ sumName digest := fun hm => absurd (h.digit hm) (by decide)
  have hlen := h.length
  rw [digestToFileName, if_pos h.prefix_]
  change (root ++ [n]).walk (sumName digest) = _
  rw [Place.walk, components_of_no_slash hno, foldl_cons, foldl_nil, down, if_neg, if_neg]
  · simp
  · intro e
    rw [e] at hlen
    exact absurd hlen (by decide)
  · rintro (e | e) <;> rw [e] at hlen <;> exact absurd hlen (by decide)

theorem Valid.blobPath_eq (h : Valid digest) : blobPath f root digest = root ++ [blobsName, sumName digest] :=
  h.walk_eq f root _

theorem extend_append (p : Place) (a b t : Text) : (p ++ [a, b]).extend t = p ++ [a, b ++ t] := by
  have hdrop : (p ++ [a, b]).dropLast = p ++ [a] := by
    rw [dropLast_append_of_ne_nil (cons_ne_nil _ _)]
    rfl
  have hlast : (p ++ [a, b]).getLast? = some b := by simp
  rw [extend, hdrop, hlast]
  simp

section

variable (h : Valid digest)

include h

theorem Valid.partialPath_eq : partialPath f root digest = root ++ [blobsName, sumName digest ++ partialSuffix] := by
  rw [partialPath, h.blobPath_eq, extend_append]

theorem Valid.deltaPath_eq : deltaPath f root digest = root ++ [blobsName, sumName digest ++ deltaSuffix] := by
  rw [deltaPath, h.blobPath_eq, extend_append]

theorem Valid.layerArchiveDir_eq :
    layerArchiveDir f root digest = root ++ [layerArchiveDirName, sumName digest] := h.walk_eq f root _

theorem Valid.layerIndexPath_eq :
    layerIndexPath f root digest = root ++ [layerArchiveDirName, sumName digest, layerIndexName] := by
  rw [layerIndexPath, h.layerArchiveDir_eq, append_assoc]
  rfl

theorem Valid.layerContentsPath_eq :
    layerContentsPath f root digest = root ++ [layerArchiveDirName, sumName digest, layerContentsName] := by
  rw [layerContentsPath, h.layerArchiveDir_eq, append_assoc]
  rfl

theorem Valid.stargzLayerDir_eq :
    stargzLayerDir f root digest = root ++ [stargzLayerDirName, sumName digest] := h.walk_eq f root _

theorem Valid.stargzLayerIndexPath_eq :
    stargzLayerIndexPath f root digest = root ++ [stargzLayerDirName, sumName digest, layerIndexName] := by
  rw [stargzLayerIndexPath, h.stargzLayerDir_eq, append_assoc]
  rfl

theorem Valid.ne_of_dot (hn : '.' ∈ n) : sumName digest ≠ n :=
  fun e => absurd (h.digit (e ▸ hn)) (by decide)

end

end Places

section Sound

variable (f : Formats) (root : Place)

def HasDigest (data : Bytes) (digest : Text) : Prop := equalFold (shaPrefix ++ f.sum256 data) digest = true
deriving Decidable

def BlobSound (d : Disk) (digest : Text) : Prop := ∀ b, d (blobPath f root digest) = some b → HasDigest f b digest

/-- The archive of a digest was made from these bytes, all of them. -/
def ArchiveOf (d : Disk) (digest : Text) (body : Bytes) : Prop :=
  ∃ mediaType, ∀ ix ct, d (layerIndexPath f root digest) = some ix → d (layerContentsPath f root digest) = some ct →
    f.layerArchive mediaType body = some (ix, ct)

/-- A cached archive was made from the whole of the blob. -/
def ArchiveSound (d : Disk) (digest : Text) : Prop :=
  ∀ ix ct, d (layerIndexPath f root digest) = some ix → d (layerContentsPath f root digest) = some ct →
    ∃ body mediaType, HasDigest f body digest ∧ f.layerArchive mediaType body = some (ix, ct)

/-- A cached eStargz index was made from the whole of the blob. -/
def StargzSound (d : Disk) (digest : Text) : Prop :=
  ∀ ix, d (stargzLayerIndexPath f root digest) = some ix →
    ∃ body, HasDigest f body digest ∧ f.stargzIndex body = .index ix

/-- All that the store would accept for a digest is right. -/
structure SoundFor (d : Disk) (digest : Text) : Prop where
  blob : BlobSound f root d digest
  archive : ArchiveSound f root d digest
  stargz : StargzSound f root d digest

/-- The question looks at what the store has for a digest. -/
def Looks (digest : Text) : Call → Prop
  | .readFile p =>
    p = blobPath f root digest ∨ p = layerIndexPath f root digest ∨ p = stargzLayerIndexPath f root digest
  | .stat p => p = blobPath f root digest ∨ p = layerContentsPath f root digest
  | _ => False

end Sound

section Watch

variable (f : Formats) (root : Place) (digest : Text)

/-- What a call for a digest has open: a configuration that is created but not written, a layer that is streamed, and
the archive of streamed bytes that is in its place before their digest was checked. -/
structure Watch where
  writing : Bool
  stream : Bool
  window : Bool
  deriving DecidableEq

namespace Watch

def rest : Watch := ⟨false, false, false⟩

def step (m : Watch) : (c : Call) → c.Answer → Watch
  | .create p .trunc, (ok : Bool) =>
    if ok = true ∧ p = blobPath f root digest then { m with writing := true }
    else if ok = true ∧ p = partialPath f root digest then { m with stream := true }
    else m
  | .append p _, _ => if p = blobPath f root digest then { m with writing := false } else m
  | .stat p, _ | .close p, _ => if p = partialPath f root digest then { m with stream := false } else m
  | .rename p q, (ok : Bool) =>
    if m.stream = true ∧ ok = true ∧ q = layerArchiveDir f root digest then { m with window := true }
    else if p = partialPath f root digest ∧ q = blobPath f root digest then { m with window := false }
    else m
  | .removeAll p, (ok : Bool) => if ok = true ∧ p = layerArchiveDir f root digest then { m with window := false } else m
  | _, _ => m

/-- What must not happen: the configuration's write comes up short, or the removal of an archive that was not checked
fails. -/
def Allows (m : Watch) : (c : Call) → c.Answer → Prop
  | .append p data, (n : Nat) => p = blobPath f root digest → n = data.length
  | .removeAll p, (ok : Bool) => m.window = true → p = layerArchiveDir f root digest → ok = true
  | _, _ => True

end Watch

/-- One answered question of a call for the digest, as far as it is allowed. -/
def Care (s : Disk × Watch) (c : Call) (a : c.Answer) (s' : Disk × Watch) : Prop :=
  Changes s.1 c a s'.1 ∧ s.2.Allows f root digest c a ∧ s'.2 = s.2.step f root digest c a

/-- All that the store would accept is right, what the call has open apart. -/
structure Inv (d : Disk) (m : Watch) : Prop where
  blob : ∀ e, Valid e → (e = digest → m.writing = false) → BlobSound f root d e
  archive : ∀ e, Valid e → (e = digest → m.window = false) → ArchiveSound f root d e
  stargz : ∀ e, Valid e → StargzSound f root d e

/-- What holds when a question is asked: the store is right, and nothing is open while the store is looked at. -/
def Guard (s : Disk × Watch) (c : Call) : Prop :=
  Inv f root digest s.1 s.2 ∧ ∀ e, Valid e → Looks f root e c → s.2.writing = false ∧ s.2.window = false

/-- The program keeps the store right and ends with `Q`. -/
abbrev Ok {α : Type} (x : Host α) (Q : α → Disk × Watch → Prop) (s : Disk × Watch) : Prop :=
  x.Wp (Care f root digest) (Guard f root digest) Q s

end Watch

variable {p : Place}

section Frame

variable {f : Formats} {root : Place} {digest e : Text} {d d' : Disk} {m w : Watch}

/-- The file is as it was, or gone. -/
def Spared (d d' : Disk) (p : Place) : Prop := d' p = d p ∨ d' p = none

theorem Spared.some (h : Spared d d' p) {b : Bytes} (hb : d' p = some b) : d p = some b := by
  rcases h with h | h
  · rw [← h, hb]
  · rw [h] at hb
    cases hb

/-- The places of the files the store accepts for a digest. -/
def places (f : Formats) (root : Place) (e : Text) : List Place :=
  [blobPath f root e, layerIndexPath f root e, layerContentsPath f root e, stargzLayerIndexPath f root e]

theorem BlobSound.mono (h : BlobSound f root d e) (hd : Spared d d' (blobPath f root e)) : BlobSound f root d' e :=
  fun b hb => h b (hd.some hb)

theorem ArchiveSound.mono (h : ArchiveSound f root d e) (hi : Spared d d' (layerIndexPath f root e))
    (hc : Spared d d' (layerContentsPath f root e)) : ArchiveSound f root d' e :=
  fun ix ct hix hct => h ix ct (hi.some hix) (hc.some hct)

theorem StargzSound.mono (h : StargzSound f root d e) (hd : Spared d d' (stargzLayerIndexPath f root e)) :
    StargzSound f root d' e := fun ix hix => h ix (hd.some hix)

/-- The rule for every change: the other digests' files are spared, and those of the digest are right unless they are
open. -/
theorem Inv.change (h : Inv f root digest d m) (hd : ∀ e, Valid e → e ≠ digest → ∀ p ∈ places f root e, Spared d d' p)
    (hb : w.writing = false → BlobSound f root d' digest) (ha : w.window = false → ArchiveSound f root d' digest)
    (hs : StargzSound f root d' digest) : Inv f root digest d' w := by
  refine ⟨fun e he hw => ?_, fun e he hw => ?_, fun e he => ?_⟩
  · by_cases heq : e = digest
    · exact heq ▸ hb (hw heq)
    · exact (h.blob e he fun h' => absurd h' heq).mono (hd e he heq _ (by simp [places]))
  · by_cases heq : e = digest
    · exact heq ▸ ha (hw heq)
    · exact (h.archive e he fun h' => absurd h' heq).mono (hd e he heq _ (by simp [places]))
        (hd e he heq _ (by simp [places]))
  · by_cases heq : e = digest
    · exact heq ▸ hs
    · exact (h.stargz e he).mono (hd e he heq _ (by simp [places]))

theorem Inv.frame (h : Inv f root digest d m) (hd : ∀ e, Valid e → ∀ p ∈ places f root e, Spared d d' p) :
    Inv f root digest d' m :=
  ⟨fun e he hw => (h.blob e he hw).mono (hd e he _ (by simp [places])),
    fun e he hw => (h.archive e he hw).mono (hd e he _ (by simp [places])) (hd e he _ (by simp [places])),
    fun e he => (h.stargz e he).mono (hd e he _ (by simp [places]))⟩

/-- A place no accepted file has. -/
def Private (f : Formats) (root p : Place) : Prop := ∀ e, Valid e → p ∉ places f root e

theorem Inv.put (h : Inv f root digest d m) (hp : Private f root p) (b : Option Bytes) :
    Inv f root digest (d.put p b) m :=
  h.frame fun e he _ hq => .inl (Disk.put_of_ne d b fun heq => hp e he (heq ▸ hq))

theorem Inv.remove (h : Inv f root digest d m) (p : Place) : Inv f root digest (d.put p none) m := by
  refine h.frame fun _ _ q _ => ?_
  by_cases hq : q = p
  · exact .inr (by rw [hq, Disk.put_self])
  · exact .inl (Disk.put_of_ne d _ hq)

theorem Inv.removeAll (h : Inv f root digest d m) (hd : ∀ r, d' r = d r ∨ (p <+: r ∧ d' r = none)) :
    Inv f root digest d' m := h.frame fun _ _ r _ => (hd r).imp_right fun h => h.2

theorem Valid.places_eq (he : Valid e) : places f root e = [root ++ [blobsName, sumName e],
    root ++ [layerArchiveDirName, sumName e, layerIndexName],
    root ++ [layerArchiveDirName, sumName e, layerContentsName],
    root ++ [stargzLayerDirName, sumName e, layerIndexName]] := by
  rw [places, he.blobPath_eq, he.layerIndexPath_eq, he.layerContentsPath_eq, he.stargzLayerIndexPath_eq]

variable {a : Text}

theorem private_dotted (hn : '.' ∈ n) (t : List Text) : Private f root (root ++ a :: n :: t) := by
  intro e he
  have hne : n ≠ sumName e := (he.ne_of_dot hn).symm
  rw [he.places_eq]
  simp [hne]

theorem Valid.private_partialPath (h : Valid digest) : Private f root (partialPath f root digest) :=
  h.partialPath_eq f root ▸ private_dotted (mem_append_right _ (by decide)) []

theorem Valid.private_delta (h : Valid digest) : Private f root (deltaPath f root digest) :=
  h.deltaPath_eq f root ▸ private_dotted (mem_append_right _ (by decide)) []

theorem moved_of_outside (d : Disk) {q r : Place} (hp : ¬p <+: r) (hq : ¬q <+: r) : d.moved p q r = d r := by
  rw [Disk.moved, if_neg hq, if_neg hp]

theorem moved_append (d : Disk) (p q r : Place) : d.moved p q (q ++ r) = d (p ++ r) := by
  rw [Disk.moved, if_pos (prefix_append _ _), drop_left]

theorem moved_self (d : Disk) (p q : Place) : d.moved p q q = d p := by
  simpa using moved_append d p q []

theorem not_prefix_place (he : Valid e) (hn : n ≠ sumName e) (hp : p ∈ places f root e) : ¬root ++ [a, n] <+: p := by
  have hcancel : ∀ {x y : List Text}, root ++ x <+: root ++ y ↔ x <+: y := prefix_append_right_inj root
  rw [he.places_eq] at hp
  simp only [mem_cons, not_mem_nil, or_false] at hp
  rcases hp with rfl | rfl | rfl | rfl <;> rw [hcancel] <;> simp [cons_prefix_cons, hn]

theorem not_prefix_of_ne {b : Text} (hab : a ≠ b) (r : List Text) : ¬root ++ [a, n] <+: root ++ b :: r := by
  rw [prefix_append_right_inj, cons_prefix_cons]
  exact fun h => hab h.1

/-- An entry with a dot in its name, renamed to the name of a digest, spares every accepted file that is not below the
new name. -/
theorem spared_of_renamed {s : Text} (hn : '.' ∈ n) (he : Valid e) (hp : p ∈ places f root e)
    (hs : ¬root ++ [a, s] <+: p) :
    Spared d (d.moved (root ++ [a, n]) (root ++ [a, s])) p :=
  .inl (moved_of_outside d (not_prefix_place he (he.ne_of_dot hn).symm hp) hs)

section

variable (hv : Valid digest)

include hv

theorem spared_others (hn : '.' ∈ n) (he : Valid e) (hne : e ≠ digest) (hp : p ∈ places f root e) :
    Spared d (d.moved (root ++ [a, n]) (root ++ [a, sumName digest])) p :=
  have hother : sumName digest ≠ sumName e := fun heq => hne (hv.inj he heq).symm
  spared_of_renamed hn he hp (not_prefix_place he hother hp)

theorem BlobSound.renamed (hn : '.' ∈ n) (ha : a ≠ blobsName) (h : BlobSound f root d digest) :
    BlobSound f root (d.moved (root ++ [a, n]) (root ++ [a, sumName digest])) digest :=
  h.mono (spared_of_renamed (f := f) hn hv (by simp [places]) (by rw [hv.blobPath_eq]; exact not_prefix_of_ne ha _))

theorem ArchiveSound.renamed (hn : '.' ∈ n) (ha : a ≠ layerArchiveDirName) (h : ArchiveSound f root d digest) :
    ArchiveSound f root (d.moved (root ++ [a, n]) (root ++ [a, sumName digest])) digest :=
  h.mono
    (spared_of_renamed (f := f) hn hv (by simp [places]) (by rw [hv.layerIndexPath_eq]; exact not_prefix_of_ne ha _))
    (spared_of_renamed (f := f) hn hv (by simp [places]) (by rw [hv.layerContentsPath_eq]; exact not_prefix_of_ne ha _))

theorem StargzSound.renamed (hn : '.' ∈ n) (ha : a ≠ stargzLayerDirName) (h : StargzSound f root d digest) :
    StargzSound f root (d.moved (root ++ [a, n]) (root ++ [a, sumName digest])) digest :=
  h.mono (spared_of_renamed (f := f) hn hv (by simp [places])
    (by rw [hv.stargzLayerIndexPath_eq]; exact not_prefix_of_ne ha _))

theorem Inv.publish_blob (h : Inv f root digest d .rest) {suffix : Text} (hdot : '.' ∈ suffix)
    (hp : p = root ++ [blobsName, sumName digest ++ suffix]) {b : Bytes} (hb : d p = some b)
    (hdig : HasDigest f b digest) :
    Inv f root digest (d.moved p (blobPath f root digest)) .rest := by
  have hn := mem_append_right (sumName digest) hdot
  rw [hv.blobPath_eq]
  subst hp
  refine h.change (fun e he hne p hp => spared_others hv hn he hne hp) (fun _ b' hb' => ?_)
    (fun _ => (h.archive digest hv fun _ => rfl).renamed hv hn (by decide))
    ((h.stargz digest hv).renamed hv hn (by decide))
  rw [hv.blobPath_eq, moved_self, hb] at hb'
  exact Option.some.inj hb' ▸ hdig

theorem Inv.publish_archive (h : Inv f root digest d m) (hn : '.' ∈ n) (hw : w.writing = m.writing)
    (ha : w.window = false → ArchiveSound f root
      (d.moved (root ++ [layerArchiveDirName, n]) (layerArchiveDir f root digest)) digest) :
    Inv f root digest (d.moved (root ++ [layerArchiveDirName, n]) (layerArchiveDir f root digest)) w := by
  rw [hv.layerArchiveDir_eq] at ha ⊢
  exact h.change (fun e he hne p hp => spared_others hv hn he hne hp)
    (fun hwr => (h.blob digest hv fun _ => hw ▸ hwr).renamed hv hn (by decide)) ha
    ((h.stargz digest hv).renamed hv hn (by decide))

theorem Inv.publish_stargz (h : Inv f root digest d .rest) (hn : '.' ∈ n) {ix : Bytes}
    (hix : d (root ++ [stargzLayerDirName, n, layerIndexName]) = some ix) {body : Bytes} (hb : HasDigest f body digest)
    (hs : f.stargzIndex body = .index ix) :
    Inv f root digest (d.moved (root ++ [stargzLayerDirName, n]) (stargzLayerDir f root digest)) .rest := by
  rw [hv.stargzLayerDir_eq]
  refine h.change (fun e he hne p hp => spared_others hv hn he hne hp)
    (fun _ => (h.blob digest hv fun _ => rfl).renamed hv hn (by decide))
    (fun _ => (h.archive digest hv fun _ => rfl).renamed hv hn (by decide)) fun ix' hix' => ?_
  rw [stargzLayerIndexPath, hv.stargzLayerDir_eq, moved_append, append_assoc] at hix'
  have heq : ix = ix' := Option.some.inj (hix.symm.trans hix')
  exact ⟨body, hb, heq ▸ hs⟩

end

end Frame

section Rules

variable {f : Formats} {root : Place} {digest : Text} {d : Disk} {m : Watch}

theorem ok_call {c : Call} {Q : c.Answer → Disk × Watch → Prop} (hg : Guard f root digest (d, m) c)
    (h : ∀ a d', Changes d c a d' → m.Allows f root digest c a → Q a (d', m.step f root digest c a)) :
    Ok f root digest (Dialog.ask c .done) Q (d, m) := by
  refine ⟨hg, fun a s' hs => ?_⟩
  obtain ⟨hc, ha, hm⟩ := hs
  have hq := h a s'.1 hc ha
  rw [← show s'.2 = m.step f root digest c a from hm] at hq
  exact hq

theorem guard_blind (hi : Inv f root digest d m) {c : Call} (hc : ∀ e, Valid e → ¬Looks f root e c) :
    Guard f root digest (d, m) c := ⟨hi, fun e he hl => absurd hl (hc e he)⟩

/-- The store with nothing open in it. -/
structure Settled (f : Formats) (root : Place) (digest : Text) (d : Disk) (m : Watch) : Prop where
  inv : Inv f root digest d m
  written : m.writing = false
  closed : m.window = false

theorem Settled.guard (h : Settled f root digest d m) (c : Call) : Guard f root digest (d, m) c :=
  ⟨h.inv, fun _ _ _ => ⟨h.written, h.closed⟩⟩

theorem ok_body (hi : Inv f root digest d m) (n : Nat) : Ok f root digest (Net.body n) (fun _ s => s = (d, m)) (d, m) :=
  ok_call (guard_blind hi fun _ _ h => h) fun _ d' hd _ => by cases hd; rfl

theorem ok_closed (hi : Inv f root digest d m) :
    Closed fun _ x => Ok f root digest x (fun _ s => s = (d, m)) (d, m) where
  done _ := rfl
  bind hx hk := hx.bind fun a _ hs => hs ▸ hk a
  request _ _ := ok_call (guard_blind hi fun _ _ h => h) fun _ _ hd _ => by cases hd; rfl
  body := ok_body hi

theorem ok_mkdirAll (hi : Inv f root digest d m) (p : Place) :
    Ok f root digest (Os.mkdirAll p) (fun _ s => s = (d, m)) (d, m) :=
  ok_call (guard_blind hi fun _ _ h => h) fun _ d' hd _ => by cases hd; rfl

theorem ok_readFile (hs : Settled f root digest d m) (p : Place) :
    Ok f root digest (Os.readFile p) (fun a s => s = (d, m) ∧ ∀ b, a = some b → d p = some b) (d, m) :=
  ok_call (hs.guard _) fun _ d' hd _ => by
    obtain ⟨rfl, hb⟩ := hd
    exact ⟨rfl, hb⟩

theorem Watch.step_close (hp : m.stream = false ∨ p ≠ partialPath f root digest) :
    (if p = partialPath f root digest then { m with stream := false } else m) = m := by
  obtain ⟨w, s, o⟩ := m
  split
  · next he =>
    cases hp.resolve_right fun h => h he
    rfl
  · rfl

theorem ok_stat (hs : Settled f root digest d m) (hp : m.stream = false ∨ p ≠ partialPath f root digest) :
    Ok f root digest (Os.stat p) (fun a s => s = (d, m) ∧ StatSays d p a) (d, m) := by
  refine ok_call (hs.guard _) fun a d' hd _ => ?_
  obtain ⟨rfl, hb⟩ := hd
  exact ⟨congrArg (Prod.mk d') (Watch.step_close hp), hb⟩

end Rules

end CrumbleCracker.Oci
