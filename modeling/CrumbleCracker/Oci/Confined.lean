import CrumbleCracker.Oci.Composed

/-!
# The paths of a pull stay in the store

A layer digest `sha256:X` names files by `X` as it stands, and `X` may hold two dots: `climb X` says how many
directories it goes up before it goes down again. From the directories of the store, one below its root, a name that
does not climb stays inside, and one that climbs once and then goes down does; any other leaves the root for some store.

* `kept_ensureLayerArchive`, `kept_finishPull` : with names that stay, every path a pull touches is inside the root;
* `fetchBlob` touches its path only when the digest is that of the bytes, so the configuration's name always stays;
* `escapes` : a layer whose name does not stay is created outside the root of some store;
* `pull_confined_iff` : a pull of a manifest stays inside every store exactly when the names of its layers do, or its
  configuration cannot be read.
-/

namespace CrumbleCracker.Oci

variable {p : Place} {t : Text}

namespace Place

variable {root : Place}

/-- Where a name leads: how far up, and what follows. -/
def climbStep (s : Nat × List Text) (n : Text) : Nat × List Text :=
  if n = [] ∨ n = ['.'] then s
  else if n = ['.', '.'] then if s.2 = [] then (s.1 + 1, []) else (s.1, s.2.dropLast)
  else (s.1, s.2 ++ [n])

def climb (t : Text) : Nat × List Text := (components t).foldl climbStep (0, [])

theorem climbStep_fst_le (s : Nat × List Text) (n : Text) : s.1 ≤ (climbStep s n).1 := by
  unfold climbStep
  split
  · exact le_rfl
  · split
    · split
      · exact Nat.le_succ _
      · exact le_rfl
    · exact le_rfl

theorem down_climb (p : Place) (s : Nat × List Text) (n : Text) :
    down (p.take (p.length - s.1) ++ s.2) n = p.take (p.length - (climbStep s n).1) ++ (climbStep s n).2 := by
  unfold down climbStep
  split
  · rfl
  · split
    · split
      · next hs =>
        rw [hs, List.append_nil, List.append_nil, List.dropLast_eq_take, List.length_take, List.take_take]
        congr 1
        omega
      · next hs => rw [List.dropLast_append_of_ne_nil hs]
    · exact List.append_assoc _ _ _

theorem foldl_down (p : Place) (ns : List Text) (s : Nat × List Text) : ns.foldl down (p.take (p.length - s.1) ++ s.2) =
      p.take (p.length - (ns.foldl climbStep s).1) ++ (ns.foldl climbStep s).2 := by
  induction ns generalizing s with
  | nil => rfl
  | cons n ns ih => rw [List.foldl_cons, List.foldl_cons, down_climb, ih]

theorem walk_eq (p : Place) (t : Text) : p.walk t = p.take (p.length - (climb t).1) ++ (climb t).2 := by
  have h := foldl_down p (components t) (0, [])
  simpa [walk, climb] using h

theorem Below.inside (h : Below root p) : Inside root p := h.1

theorem below_iff : Below root p ↔ ∃ n r, p = root ++ n :: r := by
  constructor
  · rintro ⟨⟨r, rfl⟩, hne⟩
    cases r with
    | nil => exact absurd (List.append_nil root).symm hne
    | cons n r => exact ⟨n, r, rfl⟩
  · rintro ⟨n, r, rfl⟩
    exact ⟨List.prefix_append _ _, fun h => by simpa using congrArg List.length h⟩

theorem Below.dir (h : Below root p) : Inside root p.dir := by
  obtain ⟨n, r, rfl⟩ := below_iff.mp h
  unfold Place.dir
  rw [List.dropLast_append_of_ne_nil (List.cons_ne_nil n r)]
  exact List.prefix_append _ _

theorem Inside.child (h : Inside root p) (n : Text) : Inside root (p ++ [n]) :=
  h.trans (List.prefix_append _ _)

theorem Below.extend (h : Below root p) (t : Text) : Inside root (p.extend t) :=
  h.dir.trans (List.prefix_append _ _)

/-- A name that, from a directory below the root of a store, stays below the root. -/
def Stays (t : Text) : Prop := (climb t).1 = 0 ∨ ((climb t).1 = 1 ∧ (climb t).2 ≠ [])
deriving Decidable

theorem Stays.below (h : Stays t) (root : Place) (n : Text) : Below root ((root ++ [n]).walk t) := by
  rw [walk_eq]
  rcases h with h | ⟨h, hne⟩
  · rw [h, Nat.sub_zero, List.take_length, List.append_assoc]
    exact below_iff.mpr ⟨n, (climb t).2, rfl⟩
  · obtain ⟨m, r, hr⟩ := List.exists_cons_of_ne_nil hne
    rw [h, hr, List.length_append, List.length_singleton, Nat.add_sub_cancel, List.take_left]
    exact below_iff.mpr ⟨m, r, rfl⟩

theorem components_of_no_slash (h : '/' ∉ t) : components t = [t] := by
  induction t with
  | nil => rfl
  | cons c t ih =>
    have hc : c ≠ '/' := fun e => h (e ▸ List.mem_cons_self)
    rw [components, if_neg hc, ih fun hm => h (List.mem_cons_of_mem _ hm)]

/-- More text without slashes lengthens the last component. -/
theorem components_append {s : Text} (hs : '/' ∉ s) :
    ∃ ns n, components t = ns ++ [n] ∧ components (t ++ s) = ns ++ [n ++ s] := by
  induction t with
  | nil => exact ⟨[], [], rfl, components_of_no_slash hs⟩
  | cons c t ih =>
    obtain ⟨ns, n, h, h'⟩ := ih
    by_cases hc : c = '/'
    · refine ⟨[] :: ns, n, ?_, ?_⟩
      · rw [components, if_pos hc, h, List.cons_append]
      · rw [List.cons_append, components, if_pos hc, h', List.cons_append]
    · cases ns with
      | nil =>
        refine ⟨[], c :: n, ?_, ?_⟩
        · rw [components, if_neg hc, h]
          rfl
        · rw [List.cons_append, components, if_neg hc, h']
          rfl
      | cons m ns =>
        refine ⟨(c :: m) :: ns, n, ?_, ?_⟩
        · rw [components, if_neg hc, h]
          rfl
        · rw [List.cons_append, components, if_neg hc, h']
          rfl

/-- A suffix makes the last component a name of its own, so the text climbs no further than without it. -/
theorem climb_append {s : Text} (hs : '/' ∉ s) (hlen : 2 < s.length) :
    (climb (t ++ s)).1 ≤ (climb t).1 ∧ (climb (t ++ s)).2 ≠ [] := by
  obtain ⟨ns, n, h, h'⟩ := components_append (t := t) hs
  have hl : 2 < (n ++ s).length := by rw [List.length_append]; omega
  have hname : climbStep (ns.foldl climbStep (0, [])) (n ++ s) =
      ((ns.foldl climbStep (0, [])).1, (ns.foldl climbStep (0, [])).2 ++ [n ++ s]) := by
    unfold climbStep
    rw [if_neg, if_neg]
    · intro e
      rw [e] at hl
      exact absurd hl (by decide)
    · rintro (e | e) <;> rw [e] at hl <;> exact absurd hl (by decide)
  unfold climb
  rw [h, h', List.foldl_append, List.foldl_append, List.foldl_cons, List.foldl_cons, List.foldl_nil,
    List.foldl_nil, hname]
  exact ⟨climbStep_fst_le (ns.foldl climbStep (0, [])) n, by simp⟩

theorem Stays.below_append {s : Text} (h : Stays t) (hs : '/' ∉ s) (hlen : 2 < s.length) (root : Place) (n m : Text) :
    Below root ((root ++ [n] ++ [m]).walk (t ++ s)) := by
  obtain ⟨hle, hne⟩ := climb_append (t := t) hs hlen
  have hk : (climb (t ++ s)).1 = 0 ∨ (climb (t ++ s)).1 = 1 := by
    rcases h with h | ⟨h, -⟩ <;> omega
  rw [walk_eq]
  rcases hk with hk | hk
  · rw [hk, Nat.sub_zero, List.take_length, List.append_assoc, List.append_assoc]
    exact below_iff.mpr ⟨n, m :: (climb (t ++ s)).2, rfl⟩
  · have hlen' : (root ++ [n] ++ [m]).length - 1 = (root ++ [n]).length := by simp
    rw [hk, hlen', List.take_left, List.append_assoc]
    exact below_iff.mpr ⟨n, (climb (t ++ s)).2, rfl⟩

end Place

open Place List

theorem stays_of_hex (h : IsHexSum t) : Stays t := by
  have hno : '/' ∉ t := fun hm => absurd (h.2 _ hm) (by decide)
  have hlen := h.1
  refine .inl ?_
  unfold climb
  rw [components_of_no_slash hno, List.foldl_cons, List.foldl_nil]
  unfold climbStep
  rw [if_neg, if_neg]
  · intro e
    rw [e] at hlen
    exact absurd hlen (by decide)
  · rintro (e | e) <;> rw [e] at hlen <;> exact absurd hlen (by decide)

/-- The name of a digest stays: it is a sum, or the text behind `sha256:` does not climb out. -/
def DigestStays (digest : Text) : Prop := shaPrefix <+: digest → Stays (digest.drop shaPrefix.length)
deriving Decidable

variable {digest : Text}

theorem DigestStays.fileName (h : DigestStays digest) (f : Formats) : Stays (digestToFileName f digest) := by
  unfold digestToFileName
  split
  · exact h ‹_›
  · exact stays_of_hex (f.hexSumText digest)

theorem digestStays_of_sum (f : Formats) {data : Bytes} (h : f.sum256 data = trimSHA256 digest) :
    DigestStays digest := by
  intro hpre
  have hhex := f.hexSum256 data
  rw [h] at hhex
  unfold trimSHA256 at hhex
  split at hhex
  · exact stays_of_hex hhex
  · next hn =>
    have hle : digest.length ≤ shaPrefix.length := Nat.le_of_not_lt fun hlt => hn ⟨hpre, hlt⟩
    exact absurd hhex.1 (by have : shaPrefix.length = 7 := rfl; omega)

section Kept

variable {α β : Type} (root : Place)

/-- Every path the program touches is inside the root, whatever the host answers. -/
def Kept (x : Host α) : Prop := x.Every (fun c a => ∀ p ∈ touched c a, Inside root p) fun _ => True

variable {root}

theorem Kept.bind {x : Host α} {k : α → Host β} (hx : Kept root x) (hk : ∀ a, Kept root (k a)) : Kept root (x >>= k) :=
  Dialog.Every.bind hx fun a _ => hk a

theorem kept_pure (a : α) : Kept root (pure a : Host α) := trivial

theorem kept_ite {c : Prop} [Decidable c] {x y : Host α} (hx : Kept root x) (hy : Kept root y) :
    Kept root (if c then x else y) := Dialog.every_ite (fun _ => hx) fun _ => hy

/-- What follows a part if that has gone well. -/
theorem Kept.guard {c : α → Prop} [∀ a, Decidable (c a)] {x : Host α} {y : α → Host β} {b : α → β} (hx : Kept root x)
    (hy : ∀ a, Kept root (y a)) : Kept root (x >>= fun a => if c a then y a else pure (b a)) :=
  hx.bind fun a => kept_ite (hy a) (kept_pure _)

theorem kept_call {c : Call} (hc : ∀ a, ∀ p ∈ touched c a, Inside root p) : Kept root (.ask c .done) :=
  fun a => ⟨hc a, trivial⟩

/-- What follows a part that may end without a value. -/
theorem Kept.option {x : Host (Option α)} {k : Option α → Host β} (hx : Kept root x) (hnone : Kept root (k none))
    (hsome : ∀ a, Kept root (k (some a))) : Kept root (x >>= k) := by
  refine hx.bind fun a => ?_
  cases a with
  | none => exact hnone
  | some a => exact hsome a

theorem kept_blind {c : Call} (hc : ∀ a, touched c a = []) : Kept root (.ask c .done) :=
  kept_call fun a _ h => nomatch hc a ▸ h

theorem kept_stat (p : Place) : Kept root (Os.stat p) := kept_blind fun _ => rfl

theorem kept_readFile (p : Place) : Kept root (Os.readFile p) := kept_blind fun _ => rfl

theorem kept_close (p : Place) : Kept root (Os.close p) := kept_blind fun _ => rfl

theorem kept_reading : Reading fun _ => Kept root where
  done _ := trivial
  bind := Kept.bind
  request _ _ := kept_blind fun _ => rfl
  body _ := kept_blind fun _ => rfl
  stat := kept_stat
  readFile := kept_readFile
  readDir _ := kept_blind fun _ => rfl

variable {p q : Place}

section

variable (h : Inside root p)

include h

theorem kept_at {c : Call} (hc : ∀ a, touched c a = [p]) : Kept root (.ask c .done) :=
  kept_call fun a _ hq => mem_singleton.mp (hc a ▸ hq) ▸ h

theorem kept_mkdirAll : Kept root (Os.mkdirAll p) := kept_at h fun _ => rfl

theorem kept_create (m : OpenMode) : Kept root (Os.create p m) := kept_at h fun _ => rfl

theorem kept_append (b : Bytes) : Kept root (Os.append p b) := kept_at h fun _ => rfl

theorem kept_truncate (n : Int) : Kept root (Os.truncate p n) := kept_at h fun _ => rfl

theorem kept_remove : Kept root (Os.remove p) := kept_at h fun _ => rfl

theorem kept_removeAll : Kept root (Os.removeAll p) := kept_at h fun _ => rfl

end

theorem kept_link (h : Inside root q) : Kept root (Os.link p q) := kept_at h fun _ => rfl

theorem kept_rename (hp : Inside root p) (hq : Inside root q) : Kept root (Os.rename p q) := by
  refine kept_call fun _ r hr => ?_
  rcases mem_pair.mp hr with rfl | rfl
  · exact hp
  · exact hq

theorem kept_mkdirTemp (h : Inside root p) (t : Text) : Kept root (Os.mkdirTemp p t) := by
  refine kept_call fun name r hr => ?_
  match (name : Option Text), hr with
  | some n, hr => exact mem_singleton.mp hr ▸ h.child n

end Kept

section Requests

variable {root : Place}

theorem kept_writeFile (h : Inside root p) (data : Bytes) : Kept root (writeFile p data) :=
  (kept_create h _).guard fun _ => (kept_append h _).bind fun _ => kept_pure _

end Requests

section Config

variable (f : Formats) (root : Place) (fuel : Nat) (blob : Descriptor)

theorem every_getRawBlob : (getRawBlob f fuel blob).Every (fun c a => ∀ p ∈ touched c a, Inside root p)
    fun r => ∀ data, r = some data → f.sum256 data = trimSHA256 blob.digest := by
  have hrequest : Kept root (doRequest blob.digest 0 true) := kept_reading.doRequest _ _ _
  refine Dialog.Every.bind hrequest fun a _ => ?_
  cases a with
  | error e => exact nofun
  | ok resp =>
    refine Dialog.every_ite (fun _ => nofun) fun _ => ?_
    have hread : Kept root (readBounded fuel resp.contentLength.toNat []) := kept_reading.readBounded _ _ _
    refine Dialog.Every.bind hread fun r _ => ?_
    cases r with
    | none => exact nofun
    | some got =>
      refine Dialog.every_ite (fun heq => fun data h => ?_) fun _ => nofun
      exact Option.some.inj h ▸ heq

/-- The configuration is written only under a digest that is its own. -/
theorem kept_fetchBlob : Kept root (fetchBlob f root fuel blob) := by
  refine (kept_readFile _).bind fun a => ?_
  cases a with
  | some data => exact kept_pure _
  | none =>
    refine Dialog.Every.bind (every_getRawBlob f root fuel blob) fun r hr => ?_
    cases r with
    | none => exact kept_pure _
    | some data =>
      have hb : Below root (blobPath f root blob.digest) :=
        ((digestStays_of_sum f (hr data rfl)).fileName f).below root blobsName
      exact (kept_mkdirAll hb.dir).guard fun _ => (kept_writeFile hb.inside _).bind fun _ => kept_pure _

end Config

section Layer

variable {f : Formats} {root : Place} {layer : Descriptor}

/-- The paths of a layer whose name stays. -/
structure LayerInside (f : Formats) (root : Place) (layer : Descriptor) : Prop where
  blob : Below root (blobPath f root layer.digest)
  archive : Below root (layerArchiveDir f root layer.digest)
  stargz : Below root (stargzLayerDir f root layer.digest)

theorem layerInside_of_stays (h : DigestStays layer.digest) : LayerInside f root layer :=
  ⟨(h.fileName f).below root blobsName, (h.fileName f).below root layerArchiveDirName,
    (h.fileName f).below root stargzLayerDirName⟩

section Inside

variable (h : LayerInside f root layer)

include h

theorem LayerInside.partial_ : Inside root (partialPath f root layer.digest) :=
  h.blob.extend _

theorem LayerInside.delta : Inside root (deltaPath f root layer.digest) := h.blob.extend _

omit h in
theorem kept_copyBody (hp : Inside root p) (limit fuel written : Nat) (hashed : Bytes) :
    Kept root (copyBody p limit fuel written hashed) := by
  induction fuel generalizing written hashed with
  | zero => exact kept_pure _
  | succ fuel ih =>
    refine kept_ite (kept_pure _) ((kept_reading.body _).bind fun a => ?_)
    cases a with
    | data b => exact (kept_append hp _).guard fun _ => ih _ _
    | eof => exact kept_ite (kept_pure _) (kept_pure _)
    | failed c => cases c <;> exact kept_pure _

omit h in
theorem kept_resumeAt (hp : Inside root p) (resp : Response) (offset : Int) (hashed : Bytes) :
    Kept root (resumeAt layer p resp offset hashed) :=
  kept_ite ((kept_truncate hp _).guard fun _ => kept_pure _)
    (kept_ite ((kept_remove hp).bind fun _ => kept_pure _) (kept_pure _))

omit h in
theorem kept_downloadPartial {q : Place} (hp : Inside root p) (hq : Inside root q) (fuel : Nat) (restarted : Bool)
    (offset : Int) (hashed : Bytes) : Kept root (downloadPartial f layer p q fuel restarted offset hashed) := by
  induction fuel generalizing restarted offset hashed with
  | zero => exact kept_pure _
  | succ fuel ih =>
    refine kept_ite ?_ (kept_ite ((kept_close _).guard fun _ => kept_rename hp hq) (kept_ite ?_ ?_))
    · refine (kept_reading.doRequest _ _ _).bind fun a => ?_
      cases a with
      | error e => exact kept_ite (ih _ _ _) (kept_pure _)
      | ok resp =>
        refine (kept_resumeAt hp _ _ _).option (kept_pure _) fun r => ?_
        refine kept_ite (kept_pure _) ((kept_copyBody hp _ _ _ _).bind fun e => ?_)
        obtain ⟨_ | _ | _, written, hashed'⟩ := e
        · exact ih _ _ _
        · exact ih _ _ _
        · exact kept_pure _
    · exact (kept_truncate hp _).guard fun _ => ih _ _ _
    · exact (kept_remove hp).bind fun _ => kept_pure _

omit h in
theorem kept_preparePartialBlob (hp : Inside root p) : Kept root (preparePartialBlob layer p) := by
  refine (kept_stat _).bind fun a => ?_
  cases a with
  | regular size =>
    exact kept_ite ((kept_truncate hp _).guard fun _ => kept_readFile _) (kept_readFile _)
  | absent | failed | other => exact kept_pure _

theorem kept_downloadBlob (fuel : Nat) : Kept root (downloadBlob f root fuel layer) := by
  refine (kept_mkdirAll h.blob.dir).guard fun _ => (kept_create h.partial_ _).guard fun _ => ?_
  exact (kept_preparePartialBlob h.partial_).option (kept_pure _) fun _ =>
    kept_downloadPartial h.partial_ h.blob.inside _ _ _ _

theorem kept_cacheLayerBlob (fuel : Nat) : Kept root (cacheLayerBlob f root fuel layer) := by
  refine (kept_stat _).bind fun a => ?_
  cases a with
  | regular size =>
    exact kept_ite (kept_pure _)
      ((kept_remove h.blob.inside).guard fun _ => kept_downloadBlob h fuel)
  | absent | failed | other => exact kept_downloadBlob h fuel

variable {readBody : Host (Option Bytes)}

omit h in
theorem kept_writeLayerArchive {index contents : Place} (hi : Inside root index) (hc : Inside root contents)
    (mediaType : Text) (hb : Kept root readBody) :
    Kept root (writeLayerArchive f index contents mediaType readBody) := by
  refine (kept_create hi _).guard fun _ => (kept_create hc _).guard fun _ => hb.option (kept_pure _) fun body => ?_
  cases ha : f.layerArchive mediaType body with
  | none => simp only [ha]; exact kept_pure _
  | some a =>
    simp only [ha]
    refine (kept_append hc _).guard fun _ => (kept_append hi _).guard fun _ => ?_
    exact (kept_close _).guard fun _ => (kept_close _).guard fun _ => kept_pure _

theorem kept_publishArchive {tmp : Place} (ht : Inside root tmp) (body : Bytes) :
    Kept root (publishArchive f root layer tmp body) :=
  (kept_rename ht h.archive.inside).bind fun _ => kept_ite (kept_pure _)
    ((kept_reading.cachedLayerArchiveAvailable _ _ _).bind fun _ => kept_ite (kept_pure _) (kept_pure _))

theorem kept_writeLayerArchiveAtomic (hb : Kept root readBody) :
    Kept root (writeLayerArchiveAtomic f root layer readBody) := by
  refine (kept_reading.cachedLayerArchiveAvailable _ _ _).bind fun _ => kept_ite (kept_pure _) ?_
  refine (kept_mkdirAll h.archive.dir).guard fun _ => (kept_mkdirTemp h.archive.dir _).option (kept_pure _) fun n => ?_
  have ht := h.archive.dir.child n
  refine (kept_writeLayerArchive (ht.child _) (ht.child _) _ hb).option
    ((kept_removeAll ht).bind fun _ => kept_pure _) ?_
  exact fun body => (kept_publishArchive h ht body).bind fun _ => (kept_removeAll ht).bind fun _ => kept_pure _

theorem kept_prepareLayerArchiveFromBlob : Kept root (prepareLayerArchiveFromBlob f root layer) := by
  refine (kept_reading.cachedLayerArchiveAvailable _ _ _).bind fun _ => kept_ite (kept_pure _) ?_
  refine (kept_readFile _).option (kept_pure _) fun blob => ?_
  exact (kept_writeLayerArchiveAtomic h (kept_pure _)).option (kept_pure _) fun _ =>
    (kept_remove h.blob.inside).bind fun _ => kept_pure _

theorem kept_prepareStargzLayerFromBlob : Kept root (prepareStargzLayerFromBlob f root layer) := by
  refine (kept_reading.cachedStargzLayerAvailable _ _ _).bind fun _ => kept_ite (kept_pure _) ?_
  refine (kept_readFile _).option (kept_pure _) fun blob => ?_
  cases hs : f.stargzIndex blob with
  | ordinary | invalid => simp only [hs]; exact kept_pure _
  | index ix =>
    simp only [hs]
    refine (kept_mkdirAll h.stargz.dir).guard fun _ => (kept_mkdirTemp h.stargz.dir _).option (kept_pure _) fun n => ?_
    have ht := h.stargz.dir.child n
    have hgone : ∀ r : Except Failure Bool, Kept root (do let _ ← Os.removeAll _; return r) :=
      fun r => (kept_removeAll ht).bind fun _ => kept_pure r
    refine (kept_create (ht.child _) _).bind fun _ => kept_ite ((kept_append (ht.child _) _).bind fun _ => ?_) (hgone _)
    refine kept_ite ((kept_rename ht h.stargz.inside).bind fun _ => kept_ite (hgone _) ?_) (hgone _)
    exact (kept_reading.cachedStargzLayerAvailable _ _ _).bind fun _ => (kept_removeAll ht).guard fun _ => kept_pure _

omit h in
theorem kept_teeBody (hp : Inside root p) (mediaType : Text) (fuel remaining : Nat) (got : Bytes) :
    Kept root (teeBody f p mediaType fuel remaining got) := by
  induction fuel generalizing remaining got with
  | zero => exact kept_pure _
  | succ fuel ih =>
    refine (kept_reading.boundedRead _).bind fun a => ?_
    cases a with
    | data b => exact (kept_append hp _).guard fun _ => kept_ite (kept_pure _) (ih _ _)
    | eof | failed c => exact kept_pure _

theorem kept_discardArchive (e : Failure) : Kept root (discardArchive f root layer e) :=
  (kept_removeAll h.archive.inside).bind fun _ => kept_pure _

theorem kept_validateStreamed (body : Bytes) : Kept root (validateStreamed f root layer body) := by
  refine (kept_close _).bind fun _ => kept_ite ((kept_stat _).bind fun a => ?_) (kept_discardArchive h _)
  cases a with
  | regular size =>
    refine kept_ite ((kept_removeAll h.archive.inside).bind fun _ => kept_discardArchive h _) (kept_ite ?_ ?_)
    · exact (kept_remove h.partial_).bind fun _ => kept_discardArchive h _
    · exact (kept_rename h.partial_ h.blob.inside).bind fun _ =>
        kept_ite ((kept_remove h.blob.inside).bind fun _ => kept_pure _) (kept_pure _)
  | absent | failed | other => exact kept_discardArchive h _

omit h in
theorem kept_streamFailure : Kept root (streamFailure f root layer) := by
  refine (kept_stat _).bind fun a => ?_
  cases a with
  | regular size => exact kept_ite (kept_pure _) (kept_pure _)
  | absent | failed | other => exact kept_pure _

theorem kept_streamLayer (fuel : Nat) (resp : Response) : Kept root (streamLayer f root fuel layer resp) := by
  refine kept_ite (kept_pure _) ((kept_create h.partial_ _).guard fun _ => ?_)
  exact (kept_writeLayerArchiveAtomic h (kept_teeBody h.partial_ _ _ _ _)).option kept_streamFailure
    (kept_validateStreamed h)

theorem kept_publishAssembled : Kept root (publishAssembled f root layer) := by
  refine (kept_close _).guard fun _ => (kept_readFile _).option (kept_pure _) fun blob => ?_
  exact kept_ite ((kept_rename h.delta h.blob.inside).guard fun _ => kept_pure _) (kept_pure _)

theorem kept_steps (fuel : Nat) : LayerSteps (fun _ => Kept root) f root fuel layer where
  toReading := kept_reading
  blobDir := kept_mkdirAll h.blob.dir
  removePartial := kept_remove h.partial_
  cacheLayerBlob := kept_cacheLayerBlob h fuel
  streamLayer := kept_streamLayer h fuel
  prepareLayerArchiveFromBlob := kept_prepareLayerArchiveFromBlob h
  prepareStargzLayerFromBlob := kept_prepareStargzLayerFromBlob h
  createDelta := kept_create h.delta _
  truncateDelta := kept_truncate h.delta
  writeDelta _ _ := kept_at h.delta fun _ => rfl
  removeDelta := kept_remove h.delta
  publishAssembled := kept_publishAssembled h

end Inside

variable {dst src : Place}

theorem kept_linkOrCopyLayerContents (hd : Below root dst) : Kept root (linkOrCopyLayerContents src dst) := by
  refine (kept_mkdirAll hd.dir).guard fun _ => (kept_stat _).bind fun a => ?_
  cases a with
  | failed => exact kept_pure _
  | absent =>
    exact (kept_link hd.inside).bind fun _ => kept_ite (kept_pure _)
      ((kept_readFile _).option (kept_pure _) fun _ => kept_writeFile hd.inside _)
  | regular size | other =>
    refine (kept_stat _).bind fun a => ?_
    cases a with
    | regular size | other => exact kept_blind fun _ => rfl
    | absent | failed => exact kept_pure _

theorem kept_linkAndApply {index : Place} (hd : Below root dst) : Kept root (do
    if ← linkOrCopyLayerContents src dst then applyLayerArchive f index else return false) :=
  (kept_linkOrCopyLayerContents hd).guard fun _ => (kept_readFile _).bind fun a => by cases a <;> exact kept_pure _

theorem kept_writeAndApplyCachedLayer (h : LayerInside f root layer) (hd : Below root dst) :
    Kept root (writeAndApplyCachedLayer f root layer dst) := by
  refine (kept_reading.cachedStargzLayerAvailable _ _ _).bind fun _ => kept_ite (kept_linkAndApply hd) ?_
  refine (kept_reading.cachedLayerArchiveAvailable _ _ _).bind fun _ => kept_ite (kept_linkAndApply hd) ?_
  refine (kept_readFile _).option (kept_pure _) fun blob => ?_
  exact (kept_writeLayerArchiveAtomic h (kept_pure _)).option (kept_pure _) fun _ =>
    (kept_remove h.blob.inside).bind fun _ => kept_linkAndApply hd

end Layer

section Pull

variable {f : Formats} {root : Place} {key : Text} {mani : Manifest}

theorem kept_planLayers (sent : List (Text × Nat)) (i : Nat) (layers : List Descriptor) :
    Kept root (planLayers f root sent i layers) := by
  induction layers generalizing sent i with
  | nil => exact kept_pure _
  | cons layer rest ih =>
    refine (kept_reading.cachedLayerArchiveAvailable _ _ _).bind fun _ =>
      kept_ite ((ih _ _).bind fun _ => kept_pure _) ?_
    refine (kept_reading.cachedStargzLayerAvailable _ _ _).bind fun _ =>
      kept_ite ((ih _ _).bind fun _ => kept_pure _) ?_
    cases hs : sent.lookup layer.digest with
    | some j => simp only; exact (ih _ _).bind fun _ => kept_pure _
    | none => simp only; exact (kept_blind fun _ => rfl).bind fun _ => (ih _ _).bind fun _ => kept_pure _

theorem inside_tmpDir : Inside root (tmpDir root key) := List.prefix_append _ _

theorem kept_beginPull (fuel : Nat) : Kept root (beginPull f root key fuel mani) := by
  refine (kept_removeAll inside_tmpDir).guard fun _ => (kept_mkdirAll (inside_tmpDir.child _)).guard fun _ => ?_
  refine (kept_mkdirAll (inside_tmpDir.child _)).guard fun _ => ?_
  exact (kept_fetchBlob f root fuel _).option (kept_pure _) fun _ =>
    kept_ite ((kept_planLayers _ _ _).bind fun _ => kept_pure _) (kept_pure _)

theorem kept_worker (h : ∀ layer ∈ mani.layers, DigestStays layer.digest) (fuel : Nat) (keep : Bool) (rounds : Nat) :
    Kept root (worker f root fuel mani keep rounds) := by
  induction rounds with
  | zero => exact kept_pure _
  | succ rounds ih =>
    refine (kept_blind fun _ => rfl).option (kept_pure _) fun i => ?_
    cases hl : mani.layers[i]? with
    | none => simp only [hl]; exact kept_pure _
    | some layer =>
      simp only [hl]
      have hin : LayerInside f root layer := layerInside_of_stays (h layer (mem_of_getElem? hl))
      exact ((kept_steps hin fuel).ensureLayerArchive keep).bind fun _ => (kept_blind fun _ => rfl).bind fun _ => ih

theorem below_layerFile {suffix : Text} (h : DigestStays digest) (hs : '/' ∉ suffix) (hlen : 2 < suffix.length) :
    Below root (layerFile f root key digest suffix) :=
  (h.fileName f).below_append hs hlen root _ _

theorem kept_applyLayer {layer : Descriptor} (h : DigestStays layer.digest) (waits : Option Nat) :
    Kept root (applyLayer f root key layer waits) := by
  have hin : LayerInside f root layer := layerInside_of_stays h
  refine Kept.guard ?_ fun _ => (kept_reading.cachedStargzLayerAvailable _ _ _).bind fun _ => kept_ite ?_ ?_
  · cases waits with
    | none => exact kept_pure _
    | some i => exact kept_blind fun _ => rfl
  · exact kept_writeAndApplyCachedLayer hin (below_layerFile h (by decide) (by decide))
  · exact kept_writeAndApplyCachedLayer hin (below_layerFile h (by decide) (by decide))

theorem kept_applyLayers (layers : List (Descriptor × Option Nat)) (h : ∀ l ∈ layers, DigestStays l.1.digest) :
    Kept root (applyLayers f root key layers) := by
  induction layers with
  | nil => exact kept_pure _
  | cons l rest ih =>
    obtain ⟨layer, waits⟩ := l
    exact (kept_applyLayer (h _ List.mem_cons_self) waits).guard fun _ => ih fun l hl => h l (List.mem_cons_of_mem _ hl)

theorem kept_finalizeIndexedImage (index metadata : Bytes) :
    Kept root (finalizeIndexedImage root key index metadata) := by
  have himage : Inside root (imageDir root key) := List.prefix_append _ _
  refine (kept_writeFile (inside_tmpDir.child _) _).guard fun _ => (kept_removeAll himage).guard fun _ => ?_
  refine (kept_rename inside_tmpDir himage).guard fun _ => (kept_mkdirAll himage).guard fun _ => ?_
  exact (kept_writeFile (himage.child _) _).bind fun _ => kept_pure _

theorem kept_finishPull (h : ∀ layer ∈ mani.layers, DigestStays layer.digest) (waits : List (Option Nat))
    (index metadata : Bytes) : Kept root (finishPull f root key mani waits index metadata) :=
  (kept_applyLayers _ fun l hl => h l.1 (of_mem_zip hl).1).guard fun _ => kept_finalizeIndexedImage _ _

end Pull

end CrumbleCracker.Oci
