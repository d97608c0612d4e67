import CrumbleCracker.Oci.Confined

/-!
# Which pulls stay in the store

The other half of `Confined`: a layer whose name climbs out of the store is reached by some run of the pull, whatever
the other layers are, because a worker takes the layers in turn and makes the directory of a blob before it knows the
digest of anything (`reaches_worker`, `escapes`). Only a configuration that names the root of the store, or a directory
above it, stops every pull first (`beginPull_fails`).
-/

namespace CrumbleCracker.Oci

open Place Dialog List

variable {digest : Text}

section Reaches

variable {α β : Type} {w w' w'' : World} {x : Host α} {k : α → Host β} {a : α} {p : Place}

/-- Some run of the program ends with the result. -/
def Gives (w : World) (x : Host α) (w' : World) (a : α) : Prop := ∃ es, Run Does w x es w' (some a)

theorem Gives.done (w : World) (a : α) : Gives w (.done a) w a := ⟨[], .done _ _⟩

theorem Gives.call {c : Call} {a : c.Answer} (h : Does w c a w') : Gives w (Dialog.call c) w' a :=
  ⟨_, .ask h (.done _ _)⟩

theorem Gives.bind {b : β} (h : Gives w x w' a) (h' : Gives w' (k a) w'' b) : Gives w (x >>= k) w'' b := by
  obtain ⟨es, h⟩ := h
  obtain ⟨es', h'⟩ := h'
  exact ⟨_, h.bind h'⟩

/-- Some run of the program touches the path. -/
def Reaches (w : World) (x : Host α) (p : Place) : Prop :=
  ∃ es w' r, Run Does w x es w' r ∧ ∃ e ∈ es, p ∈ touched e.1 e.2

theorem Reaches.bind (h : Reaches w x p) : Reaches w (x >>= k) p := by
  obtain ⟨es, w', r, hr, e, he, hp⟩ := h
  cases r with
  | none => exact ⟨es, w', none, hr.bind_none, e, he, hp⟩
  | some a => exact ⟨es ++ [], w', none, hr.bind (.stop _ _), e, mem_append_left _ he, hp⟩

theorem Reaches.after (h : Gives w x w' a) (h' : Reaches w' (k a) p) : Reaches w (x >>= k) p := by
  obtain ⟨es, h⟩ := h
  obtain ⟨es', w'', r, hr, e, he, hp⟩ := h'
  exact ⟨es ++ es', w'', r, h.bind hr, e, mem_append_right _ he, hp⟩

variable (f : Formats) (root : Place) (fuel : Nat) (layer : Descriptor) (w : World)

theorem run_readFile (p : Place) : Gives w (Os.readFile p) w none := .call ⟨⟨rfl, fun _ h => by cases h⟩, rfl, rfl⟩

theorem run_stat (p : Place) : Gives w (Os.stat p) w .failed := .call ⟨⟨rfl, trivial⟩, rfl, rfl⟩

theorem run_request (d : Text) (r : Option (Int × Option Int)) : Gives w (Net.request d r) w (.error ⟨none, false⟩) :=
  .call ⟨rfl, rfl, rfl⟩

theorem run_mkdirAll (p : Place) (ok : Bool) : Gives w (Os.mkdirAll p) w ok := .call ⟨rfl, rfl, rfl⟩

theorem run_cachedLayerArchiveAvailable : Gives w (cachedLayerArchiveAvailable f root layer) w false :=
  (run_readFile w _).bind (.done _ _)

theorem run_cachedStargzLayerAvailable : Gives w (cachedStargzLayerAvailable f root layer) w false :=
  (run_readFile w _).bind (.done _ _)

theorem run_cachedLayerBlobAvailable : Gives w (cachedLayerBlobAvailable f root layer) w false :=
  (run_stat w _).bind (.done _ _)

theorem run_tryReconstructStargzLayer : Gives w (tryReconstructStargzLayer f root fuel layer) w (.ok false) := by
  have hfetch : Gives w (fetchRemoteStargzTOCDocument f fuel layer) w none := by
    by_cases hs : layer.size ≤ footerSize
    · rw [fetchRemoteStargzTOCDocument, if_pos hs]
      exact .done _ _
    · rw [fetchRemoteStargzTOCDocument, if_neg hs]
      exact (((run_request w _ _).bind (.done _ _)).bind (.done _ _)).bind (.done _ _)
  exact hfetch.bind (.done _ _)

theorem reaches_mkdirAll (w : World) (p : Place) : Reaches w (Os.mkdirAll p) p :=
  ⟨_, w, _, .ask (a := true) ⟨rfl, rfl, rfl⟩ (.done _ _), _, mem_singleton_self _, mem_singleton_self _⟩

theorem reaches_cacheLayerBlob : Reaches w (cacheLayerBlob f root fuel layer) (blobPath f root layer.digest).dir :=
  .after (run_stat w _) (reaches_mkdirAll w _).bind

theorem reaches_streamOrResume : Reaches w (streamOrResume f root fuel layer) (blobPath f root layer.digest).dir :=
  Reaches.bind (reaches_mkdirAll w _).bind

theorem reaches_ensureUnpackedLayer :
    Reaches w (ensureUnpackedLayer f root fuel layer) (blobPath f root layer.digest).dir := by
  cases hp : w.disk (partialPath f root layer.digest) with
  | none =>
    have hstat : Gives w (Os.stat (partialPath f root layer.digest)) w .absent := .call ⟨⟨rfl, hp⟩, rfl, rfl⟩
    exact .after hstat (reaches_streamOrResume f root fuel layer w)
  | some b =>
    have hstat : Gives w (Os.stat (partialPath f root layer.digest)) w (.regular b.length) :=
      .call ⟨⟨rfl, b, hp, rfl⟩, rfl, rfl⟩
    refine .after hstat ?_
    cases b with
    | nil =>
      have hremove : Gives w (Os.remove (partialPath f root layer.digest)) w false := .call ⟨.inl ⟨rfl, rfl⟩, rfl, rfl⟩
      exact .after hremove (reaches_streamOrResume f root fuel layer w)
    | cons c b => exact (reaches_cacheLayerBlob f root fuel layer w).bind

/-- A layer that is not cached gets its directory, and it may fail. -/
theorem reaches_ensureLayerArchive (keep : Bool) :
    Reaches w (ensureLayerArchive f root fuel layer keep) (blobPath f root layer.digest).dir ∧
      Gives w (ensureLayerArchive f root fuel layer keep) w (.error .failed) := by
  have hs := run_cachedStargzLayerAvailable f root layer w
  have ha := run_cachedLayerArchiveAvailable f root layer w
  have hb := run_cachedLayerBlobAvailable f root layer w
  cases keep with
  | false =>
    have hu : Gives w (ensureUnpackedLayer f root fuel layer) w (.error .failed) := (run_stat w _).bind (.done _ _)
    exact ⟨.after (.done _ _) (.after ha (.after hb (reaches_ensureUnpackedLayer f root fuel layer w))),
      Gives.bind (.done _ _) (ha.bind (hb.bind hu))⟩
  | true =>
    have ht := run_tryReconstructStargzLayer f root fuel layer w
    have hc : Gives w (cacheLayerBlob f root fuel layer) w false :=
      (run_stat w _).bind ((run_mkdirAll w _ false).bind (.done _ _))
    exact ⟨.after hs (.after ha (.after hb (.after ht (reaches_cacheLayerBlob f root fuel layer w).bind))),
      hs.bind (ha.bind (hb.bind (ht.bind (hc.bind (.done _ _)))))⟩

variable (mani : Manifest) (keep : Bool)

theorem reaches_worker (jobs : List Nat) (rounds : Nat) (hj : w.jobs = jobs) (hr : jobs.length ≤ rounds)
    (hbad : ∃ i ∈ jobs, ∃ l, mani.layers[i]? = some l ∧ l.digest = digest) (hlt : ∀ i ∈ jobs, i < mani.layers.length) :
    Reaches w (worker f root fuel mani keep rounds) (blobPath f root digest).dir := by
  induction jobs generalizing w rounds with
  | nil => obtain ⟨i, hi, -⟩ := hbad; cases hi
  | cons i jobs ih =>
    obtain ⟨rounds, rfl⟩ : ∃ r, rounds = r + 1 := ⟨rounds - 1, by rw [length_cons] at hr; omega⟩
    obtain ⟨l, hl⟩ : ∃ l, mani.layers[i]? = some l :=
      ⟨_, getElem?_eq_getElem (hlt i mem_cons_self)⟩
    have hnext : Gives w Chan.next { w with jobs := jobs } (some i) :=
      .call ⟨rfl, by rw [hj]; rfl, (congrArg List.tail hj).symm, rfl⟩
    refine .after hnext ?_
    simp only [hl]
    by_cases hd : l.digest = digest
    · exact hd ▸ (reaches_ensureLayerArchive f root fuel l _ keep).1.bind
    · have hfin : Gives { w with jobs := jobs } (Chan.finish i false)
          { w with jobs := jobs, results := fun j => if j = i then some false else w.results j } () :=
          .call ⟨rfl, rfl, rfl⟩
      refine .after (reaches_ensureLayerArchive f root fuel l _ keep).2
        (.after hfin (ih _ rounds rfl (by rw [length_cons] at hr; omega) ?_
        fun j hm => hlt j (mem_cons_of_mem _ hm)))
      obtain ⟨j, hm, l', hl', hd'⟩ := hbad
      rcases mem_cons.mp hm with rfl | hm
      · rw [hl] at hl'
        exact absurd (Option.some.inj hl' ▸ hd') hd
      · exact ⟨j, hm, l', hl', hd'⟩

/-- Nothing being cached, every digest is sent to the workers once. -/
theorem run_planLayers (sent : List (Text × Nat)) (i : Nat) (rest : List Descriptor) :
    ∃ waits new, Gives w (planLayers f root sent i rest) { w with jobs := w.jobs ++ new } waits ∧
      new.length ≤ rest.length ∧ (∀ j ∈ new, j < i + rest.length) ∧
      ∀ l ∈ rest, (sent.lookup l.digest).isSome = true ∨
        ∃ j ∈ new, ∃ l', i ≤ j ∧ rest[j - i]? = some l' ∧ l'.digest = l.digest := by
  induction rest generalizing sent i w with
  | nil => exact ⟨[], [], by rw [append_nil]; exact .done _ _, le_rfl, by simp, by simp⟩
  | cons layer rest ih =>
    have ha := run_cachedLayerArchiveAvailable f root layer w
    have hs := run_cachedStargzLayerAvailable f root layer w
    -- a later layer of `rest` sits one place further in `layer :: rest`
    have hshift : ∀ {j : Nat} {l' : Descriptor}, i + 1 ≤ j → rest[j - (i + 1)]? = some l' →
        (layer :: rest)[j - i]? = some l' := by
      intro j l' hj hl'
      rw [show j - i = (j - (i + 1)) + 1 by omega, getElem?_cons_succ]
      exact hl'
    cases hsent : sent.lookup layer.digest with
    | some j =>
      obtain ⟨waits, new, hrun, hlen, hlt, hall⟩ := ih w sent (i + 1)
      have hrest : Gives w (planLayers f root sent (i + 1) rest >>= fun waits => pure (some j :: waits)) _ _ :=
        hrun.bind (.done _ _)
      refine ⟨some j :: waits, new, ha.bind (hs.bind (by simp only [hsent]; exact hrest)),
        by rw [length_cons]; omega, fun j hj => ?_, fun l hl => ?_⟩
      · have := hlt j hj
        rw [length_cons]
        omega
      · rcases mem_cons.mp hl with rfl | hl
        · exact .inl (by rw [hsent]; rfl)
        · rcases hall l hl with h | ⟨j, hj, l', hij, hl', hd⟩
          · exact .inl h
          · exact .inr ⟨j, hj, l', by omega, hshift hij hl', hd⟩
    | none =>
      have hsend : Gives w (Chan.send i) { w with jobs := w.jobs ++ [i] } () := .call ⟨rfl, rfl, rfl⟩
      obtain ⟨waits, new, hrun, hlen, hlt, hall⟩ :=
        ih { w with jobs := w.jobs ++ [i] } ((layer.digest, i) :: sent) (i + 1)
      rw [append_assoc] at hrun
      have hrest := hsend.bind (k := fun _ => planLayers f root ((layer.digest, i) :: sent) (i + 1) rest >>=
        fun waits => pure (some i :: waits)) (hrun.bind (.done _ _))
      have hself : ∃ j ∈ i :: new, ∃ l', i ≤ j ∧ (layer :: rest)[j - i]? = some l' ∧ l'.digest = layer.digest :=
        ⟨i, mem_cons_self, layer, le_rfl, by rw [Nat.sub_self]; rfl, rfl⟩
      refine ⟨some i :: waits, i :: new, ha.bind (hs.bind (by simp only [hsent]; exact hrest)),
        by simpa using hlen, fun j hj => ?_, fun l hl => ?_⟩
      · rw [length_cons]
        rcases mem_cons.mp hj with rfl | hj
        · omega
        · have := hlt j hj
          omega
      · rcases mem_cons.mp hl with rfl | hl
        · exact .inr hself
        · by_cases hd : l.digest = layer.digest
          · exact .inr (hd ▸ hself)
          · rcases hall l hl with h | ⟨j, hj, l', hij, hl', hd'⟩
            · rw [lookup_cons, beq_eq_false_iff_ne.mpr hd] at h
              exact .inl h
            · exact .inr ⟨j, mem_cons_of_mem _ hj, l', by omega, hshift hij hl', hd'⟩

end Reaches

section Escapes

variable (f : Formats) (mani : Manifest)

/-- The world before a pull: the root of the store and what is above it are directories, and no channel is open. -/
structure World.Before (root : Place) (w : World) : Prop where
  directories : ∀ p, p <+: root → w.disk p = none
  idle : w.jobs = []

/-- A digest whose name is the root of the store or a directory above it, so that no file can have it. -/
def NamesDirectory (digest : Text) : Prop :=
  shaPrefix <+: digest ∧ 0 < (climb (digest.drop shaPrefix.length)).1 ∧ (climb (digest.drop shaPrefix.length)).2 = []
deriving Decidable

theorem NamesDirectory.not_stays (h : NamesDirectory digest) : ¬DigestStays digest := by
  intro hs
  rcases hs h.1 with h0 | ⟨-, hne⟩
  · exact absurd h0 (Nat.pos_iff_ne_zero.mp h.2.1)
  · exact hne h.2.2

theorem NamesDirectory.blobPath_le (h : NamesDirectory digest) (root : Place) : blobPath f root digest <+: root := by
  obtain ⟨hpre, hup, hnil⟩ := h
  rw [blobPath, digestToFileName, if_pos hpre, walk_eq, hnil, append_nil, length_append, length_singleton,
    take_append_of_le_length (by omega)]
  exact take_prefix _ _

/-- A configuration that names a directory is neither cached nor downloaded, so the pull ends before its layers. -/
theorem beginPull_fails {es : List (Event Call Call.Answer)} {root : Place} {key : Text} {fuel : Nat}
    (hc : NamesDirectory mani.config.digest) {w w' : World}
    (hw : w.Before root) {waits : List (Option Nat)} :
    ¬Run Does w (beginPull f root key fuel mani) es w' (some (some waits)) := by
  intro h
  obtain ⟨_, w₁, ok, _, hremove, h⟩ := h.of_bind
  have hdir : ∀ p, p <+: root → w₁.disk p = none := by
    cases hremove with
    | ask hd hdone =>
      cases hdone
      intro p hp
      rcases hd.1.1 p with hsame | ⟨-, hnone⟩
      · rw [hsame, hw.directories p hp]
      · exact hnone
  cases ok with
  | false => cases h
  | true =>
    obtain ⟨_, w₂, ok, _, hmk, h⟩ := h.of_bind
    have hdisk₂ : w₂.disk = w₁.disk := by cases hmk with | ask hd hdone => cases hdone; exact hd.1
    cases ok with
    | false => cases h
    | true =>
      obtain ⟨_, w₃, ok, _, hmk', h⟩ := h.of_bind
      have hdisk₃ : w₃.disk = w₂.disk := by cases hmk' with | ask hd hdone => cases hdone; exact hd.1
      cases ok with
      | false => cases h
      | true =>
        obtain ⟨_, w₄, r, _, hfetch, h⟩ := h.of_bind
        cases r with
        | none => cases h
        | some cfg =>
          obtain ⟨_, w₅, r, _, hread, hfetch⟩ := hfetch.of_bind
          cases r with
          | some data =>
            cases hread with
            | ask hd hdone =>
              cases hdone
              have hsome := hd.1.2 data rfl
              rw [hdisk₃, hdisk₂, hdir _ (hc.blobPath_le f root)] at hsome
              cases hsome
          | none =>
            obtain ⟨_, w₆, r, _, hget, hfetch⟩ := hfetch.of_bind
            cases r with
            | none => cases hfetch
            | some data =>
              have hsum := (every_getRawBlob f root fuel mani.config).result hget data rfl
              exact hc.not_stays (digestStays_of_sum f hsum)

theorem exists_longer (ts : List Text) : ∃ t : Text, ∀ s ∈ ts, s.length < t.length := by
  refine ⟨'a' :: ts.flatten, fun s hs => ?_⟩
  rw [length_cons]
  exact Nat.lt_succ_of_le (sublist_flatten_of_mem hs).length_le

/-- A layer name that does not stay leaves a root that does not occur in it. -/
theorem not_inside_of_not_stays (h : ¬DigestStays digest) {r : Text}
    (hr : r ∉ (climb (digest.drop shaPrefix.length)).2) :
    ¬Inside [r] (blobPath f [r] digest).dir := by
  unfold DigestStays at h
  push Not at h
  obtain ⟨hpre, hs⟩ := h
  unfold Stays at hs
  push Not at hs
  obtain ⟨h0, h1⟩ := hs
  rw [blobPath, digestToFileName, if_pos hpre, walk_eq]
  set c := climb (digest.drop shaPrefix.length)
  unfold Inside dir
  rcases Nat.lt_or_ge c.1 2 with hlt | hge
  · have h1' : c.1 = 1 := by omega
    rw [h1', h1 h1']
    simp
  · have hnil : ([r] ++ [blobsName]).take (([r] ++ [blobsName]).length - c.1) = [] := by
      rw [show ([r] ++ [blobsName]).length - c.1 = 0 by simp; omega, take_zero]
    rw [hnil, nil_append]
    intro hp
    exact hr ((dropLast_sublist _).subset (hp.subset (mem_singleton_self r)))

/-- A configuration that does not name a directory can be cached in a store whose root and image occur nowhere in its
name. -/
theorem config_cached (h : ¬NamesDirectory digest) {r key : Text} (hr : r ∉ (climb (digestToFileName f digest)).2)
    (hk : key ++ tmpSuffix ∉ (climb (digestToFileName f digest)).2) (hb : key ++ tmpSuffix ≠ blobsName) :
    ¬blobPath f [r] digest <+: [r] ∧ ¬tmpDir [r] key <+: blobPath f [r] digest := by
  have hdown : 0 < (climb (digestToFileName f digest)).1 → (climb (digestToFileName f digest)).2 ≠ [] := by
    intro hup hnil
    by_cases hpre : shaPrefix <+: digest
    · rw [digestToFileName, if_pos hpre] at hup hnil
      exact h ⟨hpre, hup, hnil⟩
    · rw [digestToFileName, if_neg hpre] at hup hnil
      rcases stays_of_hex (f.hexSumText digest) with h0 | ⟨-, hne⟩
      · omega
      · exact hne hnil
  rw [blobPath, walk_eq]
  set c := climb (digestToFileName f digest)
  unfold tmpDir
  rcases hc : c.1 with _ | _ | k
  · simp [hb]
  · obtain ⟨n, ns, hns⟩ := exists_cons_of_ne_nil (hdown (by omega))
    rw [hns] at hr hk ⊢
    have hne : key ++ tmpSuffix ≠ n := fun e => hk (e ▸ mem_cons_self)
    simp [hne]
  · obtain ⟨n, ns, hns⟩ := exists_cons_of_ne_nil (hdown (by omega))
    rw [hns] at hr hk ⊢
    have hne : r ≠ n := fun e => hr (e ▸ mem_cons_self)
    have hnil : ([r] ++ [blobsName]).take (([r] ++ [blobsName]).length - (k + 1 + 1)) = [] := by simp
    rw [hnil]
    simp [hne, Ne.symm hne]

/-- A layer whose name does not stay makes a directory outside the root of some store. -/
theorem escapes (keep : Bool) (hc : ¬NamesDirectory mani.config.digest) {layer : Descriptor} (hl : layer ∈ mani.layers)
    (hs : ¬DigestStays layer.digest) : ∃ root key fuel w es, w.Before root ∧ PullRun f root key fuel mani keep w es ∧
      ∃ e ∈ es, ∃ p ∈ touched e.1 e.2, ¬Inside root p := by
  obtain ⟨cfg, hcfg⟩ := f.someConfig
  obtain ⟨r, hr⟩ := exists_longer (blobsName :: (climb (digestToFileName f mani.config.digest)).2 ++
    (climb (layer.digest.drop shaPrefix.length)).2)
  have hlong : ∀ {t : Text} {l : List Text}, (∀ s ∈ l, s.length < t.length) → t ∉ l := fun h hm => lt_irrefl _ (h _ hm)
  have hrc : r ∉ (climb (digestToFileName f mani.config.digest)).2 :=
    hlong fun s hm => hr s (mem_append_left _ (mem_cons_of_mem _ hm))
  have hkc : r ++ tmpSuffix ∉ (climb (digestToFileName f mani.config.digest)).2 := by
    refine hlong fun s hm => ?_
    have := hr s (mem_append_left _ (mem_cons_of_mem _ hm))
    rw [length_append]
    omega
  have hkb : r ++ tmpSuffix ≠ blobsName := by
    intro e
    have := hr blobsName (mem_append_left _ mem_cons_self)
    rw [← e, length_append] at this
    omega
  obtain ⟨habove, htmp⟩ := config_cached f hc hrc hkc hkb
  -- the store holds the cached configuration and nothing else
  let w : World := ⟨fun p => if p = blobPath f [r] mani.config.digest then some cfg else none, [], fun _ => none⟩
  have hnone : ∀ p, p ≠ blobPath f [r] mani.config.digest → w.disk p = none := fun p hp => if_neg hp
  have hbefore : w.Before [r] := ⟨fun p hp => hnone p fun e => habove (e ▸ hp), rfl⟩
  obtain ⟨waits, new, hplan, hlen, hlt, hall⟩ := run_planLayers f [r] w [] 0 mani.layers
  have hremove : Gives w (Os.removeAll (tmpDir [r] r)) w true :=
    .call ⟨⟨fun _ => .inl rfl, fun _ p hp => hnone p fun e => htmp (e ▸ hp)⟩, rfl, rfl⟩
  have hread : Gives w (Os.readFile (blobPath f [r] mani.config.digest)) w (some cfg) :=
    .call ⟨⟨rfl, fun b hb => by cases hb; exact if_pos rfl⟩, rfl, rfl⟩
  have hfetch : Gives w (fetchBlob f [r] 0 mani.config) w (some cfg) := hread.bind (.done _ _)
  have htail : Gives w (planImage f [r] mani cfg) { w with jobs := w.jobs ++ new } (some waits) := by
    rw [planImage, if_pos hcfg]
    exact hplan.bind (.done _ _)
  obtain ⟨es, hbegin⟩ : Gives w (beginPull f [r] r 0 mani) _ (some waits) :=
    hremove.bind ((run_mkdirAll w _ true).bind ((run_mkdirAll w _ true).bind (hfetch.bind htail)))
  obtain ⟨j, hj, l', -, hl', hd⟩ : ∃ j ∈ new, ∃ l', 0 ≤ j ∧ mani.layers[j - 0]? = some l' ∧ l'.digest =
    layer.digest := by
    rcases hall layer hl with h | h
    · cases h
    · exact h
  have hworker := reaches_worker f [r] 0 { w with jobs := w.jobs ++ new } mani keep new (mani.layers.length + 1) rfl
    (by omega) ⟨j, hj, l', hl', hd⟩ fun i hi => by simpa using hlt i hi
  obtain ⟨es', w', res, hrun, e, he, hp⟩ := hworker
  have hone : ∃ k, min (if keep = true then 4 else 2) new.length = k + 1 := by
    have hpos : 0 < new.length := length_pos_of_mem hj
    refine ⟨min (if keep = true then 4 else 2) new.length - 1, ?_⟩
    split <;> omega
  obtain ⟨k, hk⟩ := hone
  have hpool : (finishPull f [r] r mani waits [] [] :: List.replicate (min (if keep = true then 4 else 2) new.length)
      (worker f [r] 0 mani keep (mani.layers.length + 1)))[1]? =
      some (worker f [r] 0 mani keep (mani.layers.length + 1)) := by
    rw [hk]
    rfl
  obtain ⟨xs, hpool⟩ := hrun.pool hpool
  exact ⟨[r], r, 0, w, _, hbefore, .whole hbegin hpool, e, mem_append_right _ he, _, hp,
    not_inside_of_not_stays f hs (hlong fun s hm => hr s (mem_append_right _ hm))⟩

end Escapes

/-- A pull of a manifest touches only paths inside the root of the store, for every store and whatever the registry and
the disk do, exactly when no layer digest of the form `sha256:X` climbs out, or when the configuration's digest names
the root or a directory above it, with which every pull fails before its layers. -/
theorem pull_confined_iff (f : Formats) (mani : Manifest) (keepCompressed : Bool) :
    (∀ root key fuel w es, w.Before root → PullRun f root key fuel mani keepCompressed w es →
      ∀ e ∈ es, ∀ p ∈ touched e.1 e.2, Inside root p) ↔
    NamesDirectory mani.config.digest ∨ ∀ layer ∈ mani.layers, DigestStays layer.digest := by
  constructor
  · intro h
    by_contra hcon
    push Not at hcon
    obtain ⟨hc, layer, hl, hs⟩ := hcon
    obtain ⟨root, key, fuel, w, es, hw, hrun, e, he, p, hp, hout⟩ := escapes f mani keepCompressed hc hl hs
    exact hout (h root key fuel w es hw hrun e he p hp)
  · intro h root key fuel w es hw hrun
    have hbegin : Kept root (beginPull f root key fuel mani) := kept_beginPull fuel
    cases hrun with
    | beginning hr => exact hbegin.run hr
    | whole hr hpool =>
      rcases h with hc | hlayers
      · exact absurd hr (beginPull_fails f mani hc hw)
      · intro e he
        rcases mem_append.mp he with he | he
        · exact hbegin.run hr e he
        · refine Every.pool (P := fun c a => ∀ p ∈ touched c a, Inside root p) (Q := fun _ => True) hpool
            (fun x hx => ?_) e he
          rcases mem_cons.mp hx with rfl | hx
          · exact kept_finishPull hlayers _ _ _
          · rw [eq_of_mem_replicate hx]
            exact kept_worker hlayers _ _ _

/-- The last digits of a number in hexadecimal. -/
def hexText : Nat → Nat → Text
  | 0, _ => []
  | k + 1, n => hexText k (n / 16) ++ [Nat.digitChar (n % 16)]

theorem isHexSum_hexText (n : Nat) : IsHexSum (hexText 64 n) := by
  have hdigit : ∀ m < 16, isHexDigit (Nat.digitChar m) = true := by decide
  have hlen (k : Nat) : ∀ n, (hexText k n).length = k := by
    induction k with
    | zero => exact fun _ => rfl
    | succ k ih => simp [hexText, ih]
  have hall (k : Nat) : ∀ n, ∀ c ∈ hexText k n, isHexDigit c = true := by
    induction k with
    | zero => simp [hexText]
    | succ k ih =>
      intro n c hc
      rcases mem_append.mp hc with hc | hc
      · exact ih _ c hc
      · rw [mem_singleton.mp hc]
        exact hdigit _ (Nat.mod_lt _ (by decide))
  exact ⟨hlen 64 n, hall 64 n⟩

/-- The configuration `{}`. -/
def emptyObject : Bytes := [123, 125]

/-- The SHA-256 sum of `{}`. -/
def emptyObjectSum : Text := hexText 64 0x44136fa355b3678a1146ad16f7e8649e94fb4fc21fe77e8310c060f61caaff8a

/-- Formats with the SHA-256 sums of the bytes used below, the empty file and `{}`, and no other configuration. -/
def plainFormats : Formats where
  sum256 b := if b = emptyObject then emptyObjectSum
    else hexText 64 (if b = [] then 0xe3b0c44298fc1c149afbf4c8996fb92427ae41e4649b934ca495991b7852b855 else 0)
  sumText _ := hexText 64 0
  hexSum256 b := by split <;> exact isHexSum_hexText _
  hexSumText _ := isHexSum_hexText _
  layerArchive _ b := some (layerArchiveMagic, b)
  rejects _ _ := false
  parseFooter _ := none
  decodeTOC _ := none
  readTOC _ := none
  stargzIndex _ := .ordinary
  appliesIndex _ := true
  decodesConfig b := b = emptyObject
  someConfig := ⟨emptyObject, by simp⟩

/-- A manifest with one layer of the digest `sha256:` and this name. -/
def namedManifest (name : Text) : Manifest where
  config := ⟨[], shaPrefix ++ emptyObjectSum, 2⟩
  layers := [⟨[], shaPrefix ++ name, 1⟩]

/-- The digest `sha256:../../x` takes the pull out of the store. -/
theorem climbing_digest_escapes : ∃ root key fuel w es, World.Before root w ∧
      PullRun plainFormats root key fuel (namedManifest ['.', '.', '/', '.', '.', '/', 'x']) false w es ∧
      ∃ e ∈ es, ∃ p ∈ touched e.1 e.2, ¬Inside root p :=
  escapes plainFormats _ false (by decide) mem_cons_self (by decide)

theorem pull_confined_plain : DigestStays (shaPrefix ++ ['.', '.', '/', 'x']) ∧ ∀ root key fuel w es,
    World.Before root w →
      PullRun plainFormats root key fuel (namedManifest ['.', '.', '/', 'x']) true w es →
      ∀ e ∈ es, ∀ p ∈ touched e.1 e.2, Inside root p :=
  ⟨by decide, (pull_confined_iff plainFormats _ true).mpr (.inr fun l hl => by
    rw [mem_singleton.mp hl]
    decide)⟩

end CrumbleCracker.Oci
