import CrumbleCracker.Oci.Archived
import CrumbleCracker.Oci.PullPaths

/-!
# What a store accepts after any history of calls

The store is written by calls of `fetchBlob`, `cacheLayerBlob`, `downloadAndPrepareLayer`, `tryReconstructStargzLayer`
and `ensureLayerArchive`, one after another; each may be stopped at any question. A later call takes what it finds under
a digest by its size or its magic bytes alone. What it finds is right as long as no call is stopped, and no write cut
short, in one of two places: between the creation of a configuration's file and its last byte, and between the rename of
a streamed layer's archive and the end of its checks (`tended_store_right`).
-/

namespace CrumbleCracker.Oci

open Place Dialog

section Steps

variable {f : Formats} {root : Place} {layer : Descriptor}

/-- Only an assembled file of the right digest becomes the blob. -/
theorem calm_publishAssembled (hv : Valid layer.digest) : Calm f root layer.digest (publishAssembled f root layer) := by
  refine (calm_close _).bind fun ok => calm_ite (fun _ d hi => ?_) fun _ => calm_done _
  refine (ok_readFile ⟨hi, rfl, rfl⟩ _).bind ?_
  rintro a _ ⟨rfl, ha⟩
  cases a with
  | none => exact ⟨hi, rfl⟩
  | some blob =>
    refine wp_ite (fun hdig => ?_) fun _ => ⟨hi, rfl⟩
    have hi' := hi.publish_blob hv (by decide) (hv.deltaPath_eq f root) (ha blob rfl) hdig
    refine (ok_rename_rest hi hi').bind fun ok s hs => ?_
    exact hs.calm (calm_ite (fun _ => calm_done _) fun _ => calm_done _)

theorem calm_createDelta (hv : Valid layer.digest) :
    Calm f root layer.digest (Os.create (deltaPath f root layer.digest) .trunc) := by
  have hp : Private f root (deltaPath f root layer.digest) := hv.private_delta
  have hne : deltaPath f root layer.digest ≠ partialPath f root layer.digest := by
    rw [hv.deltaPath_eq, hv.partialPath_eq]
    simp [deltaSuffix, partialSuffix]
  refine fun d hi => (ok_create_trunc hi _).weaken ?_
  rintro ok _ (⟨rfl, rfl⟩ | ⟨rfl, rfl⟩)
  · exact ⟨hi, rfl⟩
  · exact ⟨hi.put hp _, by rw [Watch.step, if_neg fun h => hp.ne_blob hv h.2, if_neg fun h => hne h.2]⟩

theorem calm_steps (hv : Valid layer.digest) (fuel : Nat) :
    LayerSteps (fun _ => Calm f root layer.digest) f root fuel layer where
  toReading := calm_reading
  blobDir := calm_mkdirAll _
  removePartial := calm_remove _
  cacheLayerBlob := calm_cacheLayerBlob hv fuel
  streamLayer := calm_streamLayer hv fuel
  prepareLayerArchiveFromBlob := calm_prepareLayerArchiveFromBlob hv
  prepareStargzLayerFromBlob := calm_prepareStargzLayerFromBlob hv
  createDelta := calm_createDelta hv
  truncateDelta := calm_truncate hv.private_delta
  writeDelta := calm_writeAt hv.private_delta
  removeDelta := calm_remove _
  publishAssembled := calm_publishAssembled hv

end Steps

section History

inductive StoreCall
  | fetchBlob (blob : Descriptor)
  | cacheLayerBlob (layer : Descriptor)
  | downloadAndPrepareLayer (layer : Descriptor)
  | tryReconstructStargzLayer (layer : Descriptor)
  | ensureLayerArchive (layer : Descriptor) (keepCompressed : Bool)

namespace StoreCall

def digest : StoreCall → Text
  | fetchBlob l | cacheLayerBlob l | downloadAndPrepareLayer l | tryReconstructStargzLayer l
  | ensureLayerArchive l _ => l.digest

def program (f : Formats) (root : Place) (fuel : Nat) : StoreCall → Host Unit
  | fetchBlob b => do
    let _ ← Oci.fetchBlob f root fuel b
  | cacheLayerBlob l => do
    let _ ← Oci.cacheLayerBlob f root fuel l
  | downloadAndPrepareLayer l => do
    let _ ← Oci.downloadAndPrepareLayer f root fuel l
  | tryReconstructStargzLayer l => do
    let _ ← Oci.tryReconstructStargzLayer f root fuel l
  | ensureLayerArchive l keep => do
    let _ ← Oci.ensureLayerArchive f root fuel l keep

end StoreCall

variable (f : Formats) (root : Place)

/-- The questions and answers of a call for the digest, from one watch to another: none is one that must not happen. -/
inductive Tended (digest : Text) : Watch → List (Event Call Call.Answer) → Watch → Prop
  | nil (m : Watch) : Tended digest m [] m
  | cons {m m' : Watch} {c : Call} {a : c.Answer} {es : List (Event Call Call.Answer)} (h : m.Allows f root digest c a)
      (rest : Tended digest (m.step f root digest c a) es m') : Tended digest m (⟨c, a⟩ :: es) m'

/-- The disks a store can have: from the empty one, by calls that end or are stopped, each with questions and answers as
`may` allows. -/
inductive History (may : StoreCall → List (Event Call Call.Answer) → Prop) : Disk → Prop
  | empty : History may fun _ => none
  | call {d d' : Disk} {c : StoreCall} {fuel : Nat} {es : List (Event Call Call.Answer)} {y : Host Unit}
      (before : History may d) (run : Steps Changes d (c.program f root fuel) es d' y) (h : may c es) : History may d'

/-- The digest is a SHA-256 digest, and the call is not cut while a configuration is unwritten or an archive
unchecked. -/
def NotCut (c : StoreCall) (es : List (Event Call Call.Answer)) : Prop :=
  Valid c.digest ∧ ∃ m : Watch, Tended f root c.digest .rest es m ∧ m.writing = false ∧ m.window = false

variable {f root} {d d' : Disk} {c : StoreCall} {es : List (Event Call Call.Answer)}

theorem Tended.steps {α : Type} {digest : Text} {x y : Host α} {m m' : Watch} (h : Tended f root digest m es m')
    (hrun : Steps Changes d x es d' y) : Steps (Care f root digest) (d, m) x es (d', m') y := by
  induction hrun generalizing m with
  | nil => cases h; exact .nil _ _
  | ask hc _ ih =>
    cases h with
    | cons hall rest => exact .ask ⟨hc, hall, rfl⟩ (ih rest)

theorem calm_program (hv : Valid c.digest) (fuel : Nat) : Calm f root c.digest (c.program f root fuel) := by
  cases c with
  | fetchBlob b => exact (calm_fetchBlob hv fuel).bind fun _ => calm_done _
  | cacheLayerBlob l => exact (calm_steps hv fuel).cacheLayerBlob.bind fun _ => calm_done _
  | downloadAndPrepareLayer l => exact (calm_steps hv fuel).downloadAndPrepareLayer.bind fun _ => calm_done _
  | tryReconstructStargzLayer l => exact (calm_steps hv fuel).tryReconstructStargzLayer.bind fun _ => calm_done _
  | ensureLayerArchive l keep => exact ((calm_steps hv fuel).ensureLayerArchive keep).bind fun _ => calm_done _

/-- At rest, what the store is right about does not depend on whose call it was. -/
theorem Inv.of_rest {digest other : Text} (h : Inv f root digest d .rest) : Inv f root other d .rest :=
  ⟨fun e he _ => h.blob e he fun _ => rfl, fun e he _ => h.archive e he fun _ => rfl, h.stargz⟩

theorem inv_of_steps (hv : Valid c.digest) (hi : Inv f root c.digest d .rest) {fuel : Nat} {y : Host Unit} {m : Watch}
    (hrun : Steps Changes d (c.program f root fuel) es d' y) (ht : Tended f root c.digest .rest es m) :
    Inv f root c.digest d' m := by
  have hwp := (calm_program hv fuel d hi).steps (ht.steps hrun)
  cases y with
  | done u => exact hwp.1.congr (congrArg Watch.writing hwp.2) (congrArg Watch.window hwp.2)
  | ask q k => exact hwp.1.1

theorem History.inv (h : History f root (NotCut f root) d) (digest : Text) : Inv f root digest d .rest := by
  induction h with
  | empty =>
    refine ⟨fun e _ _ b hb => ?_, fun e _ _ ix ct hix => ?_, fun e _ ix hix => ?_⟩ <;> contradiction
  | call before hrun hmay ih =>
    obtain ⟨hv, m, ht, hw, ho⟩ := hmay
    exact ((inv_of_steps hv ih.of_rest hrun ht).congr hw.symm ho.symm).of_rest

theorem tended_store_right (h : History f root (NotCut f root) d) (hv : Valid c.digest) {fuel : Nat}
    {es : List (Event Call Call.Answer)} {q : Call} {k : q.Answer → Host Unit}
    (hrun : Steps Changes d (c.program f root fuel) es d' (.ask q k)) {m : Watch}
    (ht : Tended f root c.digest .rest es m) {e : Text} (he : Valid e) (hl : Looks f root e q) :
    SoundFor f root d' e := by
  have hwp := (calm_program hv fuel d (h.inv _)).steps (ht.steps hrun)
  obtain ⟨hi, hopen⟩ := hwp.1
  obtain ⟨hw, ho⟩ := hopen e he hl
  exact ⟨hi.blob e he fun _ => hw, hi.archive e he fun _ => ho, hi.stargz e he⟩

def objectBlob : Descriptor := ⟨[], shaPrefix ++ emptyObjectSum, 2⟩

def objectBlobPath : Place := blobPath plainFormats [] objectBlob.digest

/-- What `fetchBlob` asks for the blob in an empty store, until its file is created. -/
def fetchEvents : List (Event Call Call.Answer) :=
  [⟨.readFile objectBlobPath, (none : Option Bytes)⟩, ⟨.request objectBlob.digest none, .ok ⟨200, 2, none⟩⟩,
    ⟨.body 2, .data emptyObject⟩, ⟨.body 1, .eof⟩, ⟨.mkdirAll objectBlobPath.dir, true⟩,
    ⟨.create objectBlobPath .trunc, true⟩]

/-- The rest of `fetchBlob` once the file is created. -/
def fetchRest : Host Unit := .ask (.append objectBlobPath emptyObject) fun _ => .done ()

theorem fetch_created {d : Disk} {y : Host Unit}
    (h : Steps Changes (Disk.put (fun _ => none) objectBlobPath (some [])) fetchRest es d y) :
    Steps Changes (fun _ => none) ((StoreCall.fetchBlob objectBlob).program plainFormats [] 2)
      (fetchEvents ++ es) d y :=
  .ask ⟨rfl, fun b h => by cases h⟩ (.ask rfl (.ask rfl (.ask rfl (.ask rfl (.ask (.inr ⟨rfl, rfl⟩) h)))))

/-- A call stopped once it has created the configuration's file leaves an empty file, which the next call takes for the
configuration without a download. -/
theorem torn_configuration_accepted :
    History plainFormats [] (fun _ _ => True) (Disk.put (fun _ => none) objectBlobPath (some [])) ∧
    Run Changes (Disk.put (fun _ => none) objectBlobPath (some [])) (fetchBlob plainFormats [] 2 objectBlob)
      [⟨.readFile objectBlobPath, some []⟩] (Disk.put (fun _ => none) objectBlobPath (some [])) (some (some [])) ∧
    ¬HasDigest plainFormats [] objectBlob.digest := by
  refine ⟨.call .empty (fetch_created (.nil _ _)) trivial, .ask ⟨rfl, fun b h => ?_⟩ (.done _ _), by decide⟩
  cases h
  exact Disk.put_self _ _ _

/-- The store after a call that was not stopped. -/
def objectStore : Disk := Disk.put (fun _ => none) objectBlobPath (some emptyObject)

theorem fetched_configuration_right : objectStore objectBlobPath = some emptyObject ∧
    SoundFor plainFormats [] objectStore objectBlob.digest := by
  have hwrite : Changes (Disk.put (fun _ => none) objectBlobPath (some []))
      (.append objectBlobPath emptyObject) (2 : Nat)
      objectStore := by
    refine ⟨le_rfl, ?_⟩
    funext q
    simp only [objectStore, Disk.put]
    split <;> simp [emptyObject]
  have hrest : Tended plainFormats [] objectBlob.digest .rest
      (fetchEvents ++ [⟨.append objectBlobPath emptyObject, (2 : Nat)⟩]) .rest :=
    .cons trivial (.cons trivial (.cons trivial (.cons trivial (.cons trivial (.cons trivial
      (.cons (fun _ => rfl) (.nil _)))))))
  have hist : History plainFormats [] (NotCut plainFormats []) objectStore :=
    .call .empty (fetch_created (.ask hwrite (.nil _ _))) ⟨by decide, .rest, hrest, rfl, rfl⟩
  exact ⟨Disk.put_self _ _ _, tended_store_right (c := .fetchBlob objectBlob) hist (by decide)
    (.nil _ ((StoreCall.fetchBlob objectBlob).program plainFormats [] 2)) (.nil _) (by decide) (.inl rfl)⟩

end History

end CrumbleCracker.Oci
