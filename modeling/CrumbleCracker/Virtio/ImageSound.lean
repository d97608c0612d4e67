import CrumbleCracker.Virtio.ImageFS

/-!
# What the requests keep of an inode

Every inode of a run of `imageFS` is `Sound` (`run_good`): it has what its kind may have, its pages lie below its size,
its whiteouts are clean names, and its extended attributes are within their limit.
-/

namespace CrumbleCracker.Virtio

open List
open SparseImageData (HasPage Ordered not_hasPage_nil ordered_nil)

/-! ## Files -/

namespace ImageFile

/-- Pages lie below the size and in the range of a host offset, and a file that reads a lower file has none. -/
structure InBounds (f : ImageFile) : Prop where
  ordered : Ordered f.data
  pages : ∀ page, HasPage f.data page → page * imageDataPageSize < f.size ∧ page * imageDataPageSize ≤ maxInt64
  lower : f.lowerSize ≤ f.size
  reads : f.abstractFile.isSome ∨ f.lowerFile.isSome → f.data = []
  one : f.abstractFile = none ∨ f.lowerFile = none

/-- The file has no lower file any more. -/
def Own (f : ImageFile) : Prop := f.abstractFile = none ∧ f.lowerFile = none

variable {f g : ImageFile}

theorem inBounds_own (hown : f.Own) (hord : Ordered f.data) (hpages : ∀ page, HasPage f.data page →
    page * imageDataPageSize < f.size ∧ page * imageDataPageSize ≤ maxInt64) (hlower : f.lowerSize ≤ f.size) :
    f.InBounds :=
  ⟨hord, hpages, hlower, by simp [hown.1, hown.2], .inl hown.1⟩

theorem InBounds.copyUpFile (h : f.InBounds) : f.copyUpFile.InBounds := by
  unfold ImageFile.copyUpFile
  split
  · exact h
  · next lower ha =>
    have hdata : f.data = [] := h.reads (.inl (by simp [ha]))
    exact ⟨h.ordered, by simp [hdata, not_hasPage_nil], le_rfl, fun _ => hdata, .inl rfl⟩

theorem InBounds.materialize (h : f.InBounds) (hok : f.materializePersistentLowerFile = .ok g) :
    g.InBounds ∧ (f.abstractFile = none → g.Own) := by
  unfold materializePersistentLowerFile materializeLowerFile at hok
  split at hok
  · next hl => exact Except.ok.inj hok ▸ ⟨h, fun ha => ⟨ha, hl⟩⟩
  next lower hl =>
  have ha : f.abstractFile = none := h.one.resolve_right (by simp [hl])
  split at hok
  · cases hok
    exact ⟨inBounds_own ⟨ha, rfl⟩ h.ordered h.pages (Nat.zero_le _), fun _ => ⟨ha, rfl⟩⟩
  split at hok
  · cases hok
  split at hok
  · cases hok
  next hmax hlen =>
  cases hok
  have hstart : Copied lower f.lowerSize f.dataBytes 0 { f with dataFile := some f.dataBytes } :=
    ⟨h.ordered, rfl, by simp [h.reads (.inr (by simp [hl])), not_hasPage_nil], by simp, fun _ _ => rfl⟩
  have hcopied := hstart.foldl (not_lt.mp hlen) _ le_rfl
  obtain ⟨data, file, dirty, hfold⟩ := foldl_materializePage_frame lower f.lowerSize (range (pagesOf f.lowerSize))
    { f with dataFile := some f.dataBytes }
  rw [hfold] at hcopied ⊢
  refine ⟨inBounds_own ⟨ha, rfl⟩ hcopied.ordered (fun page hp => ?_) (Nat.zero_le _), fun _ => ⟨ha, rfl⟩⟩
  have hbelow := lt_pagesOf.mp (hcopied.pages page hp)
  exact ⟨Nat.lt_of_lt_of_le hbelow h.lower, by omega⟩

theorem InBounds.writeData (h : f.InBounds) (src : Bytes) (hown : src ≠ [] → f.Own) {off n size : Nat}
    (hmax : off + n ≤ maxInt64) (hsize : f.size ≤ size) (hend : n ≠ 0 → off + n ≤ size) :
    { f.writeData src off n with size := size }.InBounds := by
  have hold : ∀ page, HasPage f.data page → page * imageDataPageSize < size ∧ page * imageDataPageSize ≤ maxInt64 :=
    fun page hp => ⟨Nat.lt_of_lt_of_le (h.pages page hp).1 hsize, (h.pages page hp).2⟩
  have hlower := Nat.le_trans h.lower hsize
  unfold ImageFile.writeData
  split
  · exact ⟨h.ordered, hold, hlower, h.reads, h.one⟩
  next hsrc =>
  split
  · exact ⟨h.ordered, hold, hlower, h.reads, h.one⟩
  next hn =>
  obtain ⟨hord, hpages⟩ := insertPages_spec h.ordered
    (range' (off / imageDataPageSize) ((off + n - 1) / imageDataPageSize + 1 - off / imageDataPageSize))
  refine inBounds_own (hown hsrc) hord (fun page hp => ((hpages page).mp hp).elim (hold page) fun hmem => ?_) hlower
  have hbelow := hend hn
  simp only [mem_range'_1, imageDataPageSize] at hmem ⊢
  omega

theorem InBounds.write (h : f.InBounds) (off : Nat) (src : Bytes) (written : Nat) :
    (f.write off src written).2.InBounds := by
  unfold ImageFile.write
  dsimp only
  split
  · exact h.copyUpFile
  split
  · exact h.copyUpFile
  next hmax _ g hg =>
  -- writing nothing leaves the lower file
  obtain ⟨hin, hown⟩ : g.InBounds ∧ (src ≠ [] → g.Own) := by
    unfold prepareImageOverlayWrite at hg
    split at hg
    · next hlen => exact Except.ok.inj hg ▸ ⟨h.copyUpFile, absurd (length_eq_zero_iff.mp hlen)⟩
    · exact (h.copyUpFile.materialize hg).imp_right fun hown _ => hown (abstractFile_copyUpFile f)
  have hsize : (g.writeData src off (min written src.length)).size = g.size := by
    unfold ImageFile.writeData
    grind
  split
  · split
    · exact hin.writeData src hown (by omega) (by omega) (by omega)
    · exact hin.writeData src hown (by omega) hsize.ge (by omega)
  · exact hin.writeData src hown (by omega) (by omega) (by omega)

theorem truncateData_eq {size : Nat} (hok : f.truncateData size = .ok g) :
    size ≤ maxInt64 ∧ g.data = f.data.truncatePages (pagesOf size) ∧ (f.Own → g.Own) := by
  unfold truncateData at hok
  split at hok
  · cases hok
  next hmax =>
  cases hc : f.clearTail size with
  | error e => rw [hc] at hok; cases hok
  | ok c =>
    rw [hc] at hok
    cases hok
    unfold clearTail at hc
    grind [Own]

theorem InBounds.setSize (h : f.InBounds) (size : Nat) : (f.setSize size).2.InBounds := by
  unfold ImageFile.setSize
  dsimp only
  split
  · exact h.copyUpFile
  next g hg =>
  have hcopied : g.InBounds ∧ g.abstractFile = none ∧ (size ≠ 0 → g.Own) := by
    split at hg
    · obtain ⟨hin, hown⟩ := h.copyUpFile.materialize hg
      exact ⟨hin, (hown (abstractFile_copyUpFile f)).1, fun _ => hown (abstractFile_copyUpFile f)⟩
    · next hzero => exact Except.ok.inj hg ▸ ⟨h.copyUpFile, abstractFile_copyUpFile f, fun h => absurd h hzero⟩
  generalize hf' : (if g.lowerFile.isSome ∧ size = 0 then
    { g with lowerFile := none, lowerSize := 0, independent := true } else g) = f'
  obtain ⟨hin, hown⟩ : f'.InBounds ∧ f'.Own := by
    obtain ⟨hin, ha, hown⟩ := hcopied
    subst hf'
    split
    · exact ⟨inBounds_own ⟨ha, rfl⟩ hin.ordered hin.pages (Nat.zero_le _), ha, rfl⟩
    · next hnot =>
      refine ⟨hin, ?_⟩
      by_cases hzero : size = 0
      · exact ⟨ha, by simpa [hzero] using hnot⟩
      · exact hown hzero
  split
  · exact hin
  · next hok =>
    obtain ⟨hmax, hdata, hown'⟩ := truncateData_eq hok
    obtain ⟨hord, hpages⟩ := SparseImageData.truncatePages_spec hin.ordered (pagesOf size)
    rw [← hdata] at hord hpages
    refine inBounds_own (hown' hown) hord (fun page hp => ?_) (Nat.min_le_right ..)
    have hbelow := lt_pagesOf.mp ((hpages page).mp hp).2
    exact ⟨hbelow, by omega⟩

theorem InBounds.step (h : f.InBounds) (op : FileOp) : (f.step op).2.InBounds := by
  have hbarrier (outcome : Barrier) : (f.barrier outcome).2.InBounds := by
    unfold barrier reclaimDurableFileData
    cases outcome with
    | syncFailed => exact h
    | recordFailed | reclaimFailed => exact ⟨h.ordered, h.pages, h.lower, h.reads, h.one⟩
    | done =>
      dsimp only
      split <;> exact ⟨h.ordered, h.pages, h.lower, h.reads, h.one⟩
  cases op with
  | write off src written => exact h.write off src written
  | setSize size => exact h.setSize size
  | openWrite => exact h.copyUpFile
  | openTruncate =>
    show f.openTruncate.2.InBounds
    unfold openTruncate
    split
    · exact h.copyUpFile
    · exact ⟨ordered_nil, by simp [not_hasPage_nil], le_rfl, fun _ => rfl, .inr rfl⟩
  | fsync outcome | syncFS outcome => exact hbarrier outcome
  | fsyncDir => exact h

theorem step_data_nil (hdata : f.data = []) (ha : f.abstractFile = none) (hl : f.lowerFile = none) (op : FileOp)
    (hop : ∀ off src written, op ≠ .write off src written) : (f.step op).2.data = [] := by
  have htruncate {g : ImageFile} {size : Nat} (hok : f.truncateData size = .ok g) : g.data = [] := by
    rw [(truncateData_eq hok).2.1, hdata, SparseImageData.truncatePages, filterMap_nil]
  have hcopy : f.copyUpFile = f := by simp [copyUpFile, ha]
  have hmat : f.materializePersistentLowerFile = .ok f := by simp [materializePersistentLowerFile, hl]
  cases op with
  | write off src written => exact absurd rfl (hop off src written)
  | setSize size =>
    simp only [step, setSize, hcopy, hmat]
    grind
  | openWrite => exact (congrArg data hcopy).trans hdata
  | openTruncate =>
    simp only [step, openTruncate, hcopy]
    grind
  | fsync outcome | syncFS outcome => cases outcome <;> grind [step, barrier, reclaimDurableFileData]
  | fsyncDir => exact hdata

end ImageFile

/-! ## Extended attributes -/

theorem toList_perm_erase {m : NameMap Bytes} {name : Name} {value : Bytes} (h : m[name]? = some value) :
    m.toList.Perm ((name, value) :: (m.erase name).toList) := by
  have hnodup (m : NameMap Bytes) : m.toList.Nodup :=
    Std.ExtTreeMap.distinct_keys_toList.imp fun h heq => h (by simp [heq])
  have hmem {m : NameMap Bytes} {k : Name} {v : Bytes} : (k, v) ∈ m.toList ↔ m[k]? = some v :=
    Std.ExtTreeMap.mem_toList_iff_getElem?_eq_some
  rw [perm_ext_iff_of_nodup (hnodup m) (nodup_cons.mpr ⟨by simp [hmem], hnodup _⟩)]
  rintro ⟨k, v⟩
  rw [mem_cons, hmem, hmem, Std.ExtTreeMap.getElem?_erase]
  grind

theorem xattrBytes_eq (m : NameMap Bytes) : xattrBytes m = (m.toList.map fun e => ImageNode.xattrSize e.1 e.2).sum := by
  rw [xattrBytes, Std.ExtTreeMap.foldl_eq_foldl_toList, sum_eq_foldl, foldl_map]
  rfl

theorem xattrBytes_erase (m : NameMap Bytes) (name : Name) :
    xattrBytes m = (m[name]?.map (ImageNode.xattrSize name)).getD 0 + xattrBytes (m.erase name) := by
  cases hold : m[name]? with
  | none =>
    have herase : m.erase name = m := by
      ext
      grind
    simp [herase]
  | some value => rw [xattrBytes_eq, xattrBytes_eq, ((toList_perm_erase hold).map _).sum_eq, map_cons, sum_cons]; rfl

theorem xattrBytes_insert (m : NameMap Bytes) (name : Name) (value : Bytes) :
    xattrBytes (m.insert name value) = ImageNode.xattrSize name value + xattrBytes (m.erase name) := by
  have herase : (m.insert name value).erase name = m.erase name := by
    ext
    grind
  rw [xattrBytes_erase _ name, herase, Std.ExtTreeMap.getElem?_insert_self]
  rfl

/-! ## Inodes -/

theorem or_and (a b c : UInt32) : (a ||| b) &&& c = a &&& c ||| b &&& c :=
  UInt32.toBitVec_inj.mp BitVec.and_or_distrib_right

def typeBits : UInt32 := modeDir ||| modeSymlink

theorem bits_eq {mode mode' bit : UInt32} (h : mode' &&& typeBits = mode &&& typeBits) (hbit : typeBits &&& bit = bit) :
    mode' &&& bit = mode &&& bit := by
  rw [← hbit, ← UInt32.and_assoc, h, UInt32.and_assoc]

theorem dir_bit : typeBits &&& modeDir = modeDir := by decide

theorem symlink_bit : typeBits &&& modeSymlink = modeSymlink := by decide

/-- The files of the image are not marked as directories or symlinks. -/
def Lower.FilesTyped (L : Lower) : Prop :=
  ∀ path attr contents, L.object path = some (.file attr contents) → attr.mode &&& typeBits = 0

namespace ImageNode

variable {L : Lower} {node node' : ImageNode}

/-- What every request keeps of an inode. -/
structure Sound (L : Lower) (node : ImageNode) : Prop where
  dirBit : node.abstractDir.isSome → node.mode &&& modeDir ≠ 0
  linkBit : node.abstractLink.isSome → node.mode &&& modeSymlink ≠ 0
  file : ∀ d, (node.file L d).InBounds
  plain : node.kind ≠ .file → node.data = [] ∧ node.abstractFile = none ∧ node.lowerFile = none
  names : node.kind ≠ .dir → node.entries = ∅ ∧ node.whiteouts = ∅
  whiteouts : ∀ name ∈ node.whiteouts, cleanChildName name = some name
  xattrs : xattrBytes node.xattrs ≤ imageMaxXattrBytesPerNode

theorem Sound.edit (h : node.Sound L) (htype : node'.mode &&& typeBits = node.mode &&& typeBits)
    (hdir : node'.abstractDir.isSome → node.abstractDir.isSome)
    (hlink : node'.abstractLink.isSome → node.abstractLink.isSome) (file : ∀ d, (node'.file L d).InBounds)
    (plain : node.kind ≠ .file → node'.data = [] ∧ node'.abstractFile = none ∧ node'.lowerFile = none)
    (names : node.kind ≠ .dir → node'.entries = ∅ ∧ node'.whiteouts = ∅)
    (whiteouts : ∀ name ∈ node'.whiteouts, cleanChildName name = some name)
    (xattrs : xattrBytes node'.xattrs ≤ imageMaxXattrBytesPerNode) : node'.Sound L ∧ node'.kind = node.kind := by
  have hd := bits_eq htype dir_bit
  have hs := bits_eq htype symlink_bit
  have hdirBit (h' : node'.abstractDir.isSome) := h.dirBit (hdir h')
  have hlinkBit (h' : node'.abstractLink.isSome) := h.linkBit (hlink h')
  have hkind : node'.kind = node.kind := by
    have := h.dirBit
    have := h.linkBit
    simp only [kind, isDir, isSymlink, hd, hs]
    grind
  exact ⟨⟨hd ▸ hdirBit, hs ▸ hlinkBit, file, hkind ▸ plain, hkind ▸ names, whiteouts, xattrs⟩, hkind⟩

theorem mode_of_file (h : node.kind = .file) : node.mode &&& typeBits = 0 := by
  have hdir : node.mode &&& modeDir = 0 := by grind [kind, isDir]
  have hlink : node.mode &&& modeSymlink = 0 := by grind [kind, isDir, isSymlink]
  rw [typeBits, UInt32.and_comm, or_and, UInt32.and_comm, hdir, UInt32.and_comm, hlink, UInt32.or_zero]

/-- An inode that is not more than its attributes and the lower object it stands for. -/
theorem Sound.fresh (hdir : node.abstractDir.isSome → node.mode &&& modeDir ≠ 0)
    (hlink : node.abstractLink.isSome → node.mode &&& modeSymlink ≠ 0)
    (hfile : node.abstractFile.isSome → node.kind = .file)
    (hdata : node.data = [] ∧ node.lowerFile = none ∧ node.lowerSize = 0)
    (hnames : node.entries = ∅ ∧ node.whiteouts = ∅ ∧ node.xattrs = ∅) : node.Sound L := by
  obtain ⟨hdata, hl, hsize⟩ := hdata
  obtain ⟨hentries, hwhite, hx⟩ := hnames
  refine ⟨hdir, hlink, fun d => ⟨?_, ?_, ?_, fun _ => hdata, .inr ?_⟩, fun hk => ⟨hdata, ?_, hl⟩,
    fun _ => ⟨hentries, hwhite⟩, ?_, ?_⟩
  · simpa [ImageNode.file, hdata] using ordered_nil
  · simp [ImageNode.file, hdata, not_hasPage_nil]
  · simp [ImageNode.file, hsize]
  · simp [ImageNode.file, hl]
  · by_contra ha
    exact hk (hfile (Option.isSome_iff_ne_none.mpr ha))
  · simp [hwhite]
  · rw [hx]
    decide

theorem Sound.setFile (h : node.Sound L) {f : ImageFile} (hf : f.InBounds) (hdata : node.kind ≠ .file → f.data = []) :
    (node.setFile f).Sound L ∧ (node.setFile f).kind = node.kind := by
  refine h.edit rfl id id (fun d => ⟨hf.ordered, hf.pages, hf.lower, ?_, ?_⟩) ?_ h.names h.whiteouts h.xattrs
  · have := hf.reads
    grind [ImageNode.setFile, ImageNode.file]
  · have := hf.one
    grind [ImageNode.setFile, ImageNode.file]
  · intro hk
    have := h.plain hk
    grind [ImageNode.setFile]

theorem Sound.copyUpFile (hL : L.FilesTyped) (h : node.Sound L) (now : Time) :
    (node.copyUpFile L now).Sound L ∧ (node.copyUpFile L now).kind = node.kind := by
  rw [ImageNode.copyUpFile]
  split
  · exact ⟨h, rfl⟩
  split
  · next attr contents hobject =>
    obtain ⟨path, ha, hpath⟩ := Option.bind_eq_some_iff.mp hobject
    -- the inode takes the mode of the lower file, which is that of a file too
    have hkind : node.kind = .file := by
      by_contra hk
      exact absurd ((h.plain hk).2.1.symm.trans ha) (by simp)
    refine h.edit ((hL path attr contents hpath).trans (mode_of_file hkind).symm) id id (fun d => ?_) (absurd hkind)
      h.names h.whiteouts h.xattrs
    have hcopied := (h.file d).copyUpFile
    simp only [ImageFile.copyUpFile, ImageNode.file, ha, Lower.contents, hpath, Option.bind_some] at hcopied ⊢
    exact hcopied
  · exact ⟨h, rfl⟩

end ImageNode

open ImageNode

variable {L : Lower} {node : ImageNode}

/-- What a request is expected to change: the names of directories and the contents of regular files; and it leaves the
type of an inode as it is. -/
def NodeEdit.Proper (node : ImageNode) : NodeEdit → Prop
  | .setDirent _ _ => node.kind = .dir
  | .call (.write _ _ _) _ => node.kind = .file
  | .chmod mode => mode &&& linuxSIFMT ≠ 0 → linuxModeToGo mode &&& typeBits = node.mode &&& typeBits
  | _ => True

theorem apply_sound (hL : L.FilesTyped) (h : node.Sound L) (e : NodeEdit) (hproper : e.Proper node) :
    (e.apply L node).Sound L ∧ (e.apply L node).kind = node.kind := by
  have hmask {mode keep : UInt32} (hkeep : keep &&& typeBits = typeBits) :
      mode &&& keep &&& typeBits = mode &&& typeBits := by
    rw [UInt32.and_assoc, hkeep]
  have hself : node.Sound L ∧ node.kind = node.kind := ⟨h, rfl⟩
  cases e with
  | setDirent name inode => exact h.edit rfl id id h.file h.plain (absurd hproper) h.whiteouts h.xattrs
  | deleteDirent name =>
    refine h.edit rfl id id h.file h.plain (fun hk => ?_) h.whiteouts h.xattrs
    simp [NodeEdit.apply, h.names hk]
  | setWhiteout raw =>
    rw [NodeEdit.apply]
    split
    · next hdir =>
      cases hclean : cleanChildName raw with
      | none => exact hself
      | some name =>
        refine h.edit rfl id id h.file h.plain (absurd (by simp [kind, isDir, hdir])) (fun n hn => ?_) h.xattrs
        obtain heq | hold := Std.ExtTreeSet.mem_insert.mp hn
        · exact Std.LawfulEqCmp.eq_of_compare heq ▸ cleanChildName_idem hclean
        · exact h.whiteouts n hold
    · exact hself
  | deleteWhiteout name =>
    refine h.edit rfl id id h.file h.plain (fun hk => ?_) (fun n hn => ?_) h.xattrs
    · simp [NodeEdit.apply, h.names hk]
    · exact h.whiteouts n (Std.ExtTreeSet.mem_of_mem_erase hn)
  | copyUp now => exact h.copyUpFile hL now
  | call op d =>
    refine h.setFile ((h.file d).step op) fun hk => ?_
    obtain ⟨hdata, ha, hl⟩ := h.plain hk
    refine ImageFile.step_data_nil hdata (by simp [ImageNode.file, ha]) (by simp [ImageNode.file, hl]) op ?_
    rintro off src written rfl
    exact hk hproper
  | materialize d =>
    rw [NodeEdit.apply]
    cases hf : (node.file L d).materializePersistentLowerFile with
    | error e => exact hself
    | ok f =>
      refine h.setFile ((h.file d).materialize hf).1 fun hk => ?_
      obtain ⟨hdata, -, hl⟩ := h.plain hk
      simp only [ImageFile.materializePersistentLowerFile, ImageNode.file, hl, Option.bind_none] at hf
      exact Except.ok.inj hf ▸ hdata
  | detach =>
    refine h.edit rfl (by simp [NodeEdit.apply]) (by simp [NodeEdit.apply]) (fun d => ?_) h.plain h.names h.whiteouts
      h.xattrs
    exact ⟨(h.file d).ordered, (h.file d).pages, (h.file d).lower, (h.file d).reads, (h.file d).one⟩
  | chmod mode =>
    refine h.edit ?_ id id h.file h.plain h.names h.whiteouts h.xattrs
    rw [NodeEdit.apply]
    dsimp only
    split
    · next htype => exact hproper htype
    · rw [or_and, hmask (by decide), UInt32.and_assoc, show linuxPermMask &&& typeBits = 0 by decide, UInt32.and_zero,
        UInt32.or_zero]
  | clearSetID => exact h.edit (hmask (by decide)) id id h.file h.plain h.names h.whiteouts h.xattrs
  | setXattr name value =>
    rw [NodeEdit.apply]
    split
    · exact hself
    · next hle =>
      refine h.edit rfl id id h.file h.plain h.names h.whiteouts ?_
      have hnew := xattrBytes_insert node.xattrs name value
      have hold := xattrBytes_erase node.xattrs name
      show xattrBytes (node.xattrs.insert name value) ≤ _
      unfold ImageNode.xattrsFull at hle
      omega
  | removeXattr name =>
    refine h.edit rfl id id h.file h.plain h.names h.whiteouts (Nat.le_trans ?_ h.xattrs)
    rw [xattrBytes_erase node.xattrs name]
    exact Nat.le_add_left ..
  | _ => exact h.edit rfl id id h.file h.plain h.names h.whiteouts h.xattrs

/-! ## Runs -/

def Change.Proper (nodes : IdMap ImageNode) : Change → Prop
  | .edit id e => ∀ node, nodes[id]? = some node → e.Proper node
  | _ => True

structure Good (L : Lower) (nodes : IdMap ImageNode) : Prop where
  sound : ∀ (id : Nat) (node : ImageNode), nodes[id]? = some node → node.Sound L
  root : ∃ node, nodes[1]? = some node ∧ node.kind = .dir

theorem imageNodeFromEntry_sound (hL : L.FilesTyped) {path : Path} {object : LowerObject}
    (h : L.object path = some object) (parent : Nat) (name : Name) :
    (imageNodeFromEntry parent name path object).Sound L := by
  cases object with
  | dir attr names | symlink attr target =>
    refine .fresh ?_ ?_ ?_ ⟨rfl, rfl, rfl⟩ ⟨rfl, rfl, rfl⟩ <;>
      simp [imageNodeFromEntry, or_and, show modeDir ≠ 0 by decide, show modeSymlink ≠ 0 by decide]
  | file attr contents =>
    have hmode : attr.mode &&& typeBits = 0 &&& typeBits := hL path attr contents h
    refine .fresh ?_ ?_ ?_ ⟨rfl, rfl, rfl⟩ ⟨rfl, rfl, rfl⟩ <;>
      simp [imageNodeFromEntry, kind, isDir, isSymlink, bits_eq hmode dir_bit, bits_eq hmode symlink_bit]

variable {nodes : IdMap ImageNode}

theorem Good.insert (h : Good L nodes) (id : Nat) (hnode : node.Sound L) : Good L (nodes.insertIfNew id node) := by
  obtain ⟨root, hroot, hdir⟩ := h.root
  refine ⟨fun i n hn => ?_, root, ?_, hdir⟩
  · have hold := h.sound i n
    grind
  · grind

theorem Good.apply (hL : L.FilesTyped) (h : Good L nodes) (c : Change) (hproper : c.Proper nodes) :
    Good L (c.apply L nodes) := by
  obtain ⟨root, hroot, hdir⟩ := h.root
  cases c with
  | add id n =>
    refine h.insert id (.fresh ?_ ?_ ?_ ⟨rfl, rfl, rfl⟩ ⟨rfl, rfl, rfl⟩) <;> simp [NewNode.node]
  | addLower id parent name path =>
    rw [Change.apply]
    cases hobject : L.object path with
    | none => exact h
    | some object => exact h.insert id (imageNodeFromEntry_sound hL hobject parent name)
  | collect id =>
    rw [Change.apply]
    split
    · exact h
    · refine ⟨fun i n hn => h.sound i n ?_, root, ?_, hdir⟩ <;> grind
  | edit id e =>
    have hstep (node : ImageNode) (hn : nodes[id]? = some node) :=
      apply_sound hL (h.sound id node hn) e (hproper node hn)
    refine ⟨fun i n hn => ?_, ?_⟩
    · rw [Change.apply, Std.ExtTreeMap.getElem?_alter] at hn
      split at hn
      · obtain ⟨old, hold, rfl⟩ := Option.map_eq_some_iff.mp hn
        exact (hstep old hold).1
      · exact h.sound i n hn
    · rw [Change.apply, Std.ExtTreeMap.getElem?_alter]
      split
      · next heq =>
        obtain rfl := Std.LawfulEqCmp.eq_of_compare heq
        exact ⟨_, by rw [hroot]; rfl, (hstep root hroot).2.trans hdir⟩
      · exact ⟨root, hroot, hdir⟩

theorem newImageFSNodes_good (hL : L.FilesTyped) : Good L (newImageFSNodes L) := by
  obtain ⟨root, hroot, hdir⟩ := Option.map_eq_some_iff.mp L.root_dir
  unfold newImageFSNodes
  rw [hroot]
  dsimp only
  refine ⟨fun id node hn => ?_, _, Std.ExtTreeMap.getElem?_insert_self, ?_⟩
  · have hsound := imageNodeFromEntry_sound hL hroot 1 [slash]
    grind
  · cases root <;> simp_all [LowerObject.kind, imageNodeFromEntry, kind, isDir]

/-- Every inode of a run is sound, and the root is a directory. -/
theorem run_good (hL : L.FilesTyped) {cs : List Change}
    (hproper : Throughout (Change.apply L) Change.Proper (newImageFSNodes L) cs) :
    Good L (runFrom (Change.apply L) (newImageFSNodes L) cs) :=
  hproper.invariant (fun _ c h => h.apply hL c) (newImageFSNodes_good hL)

end CrumbleCracker.Virtio
