import ControlLogic.Proofs.FileSystem.Requests

/-!
Writing a file bit by bit, and reading it bit by bit. What is written through a handle that has just
been opened is what is read, however it is cut up.
-/

set_option autoImplicit false
set_option relaxedAutoImplicit false

namespace ControlLogic.FileSystem

/-- Bytes cut up into pieces of some sizes, as far as there are bytes. -/
def pieces (data : List UInt8) : List Nat → List (List UInt8)
  | [] => []
  | size :: sizes => data.take size :: pieces (data.drop size) sizes

theorem flatten_pieces (data : List UInt8) (sizes : List Nat) :
    (pieces data sizes).flatten = data.take (sizes.foldr (· + ·) 0) := by
  induction sizes generalizing data with
  | nil => rfl
  | cons size sizes ih =>
    rw [pieces, List.flatten_cons, ih, List.foldr_cons, List.take_add]

private theorem overwrite_length (data bytes : List UInt8) :
    overwrite data data.length bytes = data ++ bytes := by
  unfold overwrite
  rw [List.take_length, Nat.sub_self, List.replicate_zero, List.append_nil,
    List.drop_eq_nil_of_le (Nat.le_add_right _ _), List.append_nil]

/-- A handle stands for a place in the file at a path, which has some bytes. -/
structure StandsIn (fs : FileSystem) (handle : Int) (file : OpenFile) (data : List UInt8) :
    Prop where
  inUse : fs.handles.get? handle = some file
  entry : fs.entryAt? file.path = some ⟨false, data⟩
  sound : fs.handles.Sound

variable {fs : FileSystem} {handle : Int} {file : OpenFile} {data : List UInt8}

/-! ### Opening -/

private theorem entryAt?_of_prepare?_write {fs fs' : FileSystem} {path : String}
    (h : fs.prepare? path .write = some fs') : fs'.entryAt? path = some .file := by
  have hmade (fs : FileSystem) :
      ({ fs with entries := fs.entries.insert path .file } : FileSystem).entryAt? path =
        some .file :=
    (entryAt?_insert rfl path).trans (if_pos rfl)
  unfold prepare? at h
  split at h
  · split at h
    · cases h
    · rw [if_pos rfl] at h
      cases h
      exact hmade fs
  · rw [if_neg (by decide)] at h
    split at h
    · cases h
      exact hmade fs
    · split at h
      · cases h
      · cases h
        exact hmade _

theorem standsIn_openFile_write (hsound : fs.handles.Sound) {path : String}
    (h : 0 ≤ (fs.openFile path .write).1) :
    (fs.openFile path .write).2.StandsIn (fs.openFile path .write).1
      ⟨normalize path, .write, 0⟩ [] := by
  cases hprepare : fs.prepare? (normalize path) .write with
  | none =>
    rw [openFile_of_prepare?_none hprepare] at h
    exact absurd (show (0 : Int) ≤ -1 from h) (by decide)
  | some fs' =>
    have hhandles := prepare?_handles hprepare
    have hopened : fs.openFile path .write = (Int.ofNat fs'.handles.nextId,
        ({ fs' with handles := fs'.handles.insert ⟨normalize path, .write, 0⟩ } :
          FileSystem).changed) := by
      unfold openFile
      dsimp only
      rw [hprepare]
      rfl
    have hsound' : fs'.handles.Sound := hhandles ▸ hsound
    have hentry : fs'.entryAt? (normalize path) = some .file :=
      entryAt?_of_prepare?_write hprepare
    rw [hopened]
    exact ⟨(hsound'.get?_insert _ _).trans (if_pos rfl), hentry, hsound'.insert _⟩

theorem standsIn_openFile_read (hsound : fs.handles.Sound) {path : String}
    (h : fs.entryAt? (normalize path) = some ⟨false, data⟩) :
    0 ≤ (fs.openFile path .read).1 ∧
      (fs.openFile path .read).2.StandsIn (fs.openFile path .read).1
        ⟨normalize path, .read, 0⟩ data := by
  have hopened : fs.openFile path .read = (Int.ofNat fs.handles.nextId,
      { fs with handles := fs.handles.insert ⟨normalize path, .read, 0⟩ }) := by
    unfold openFile prepare?
    dsimp only
    rw [h]
    rfl
  rw [hopened]
  exact ⟨Int.natCast_nonneg _, (hsound.get?_insert _ _).trans (if_pos rfl), h, hsound.insert _⟩

/-! ### Reading and writing -/

theorem StandsIn.read (h : fs.StandsIn handle file data) (hcursor : file.cursor ≤ data.length)
    (limit : Nat) :
    (fs.read handle limit).1 = some ((data.drop file.cursor).take limit) ∧
      (fs.read handle limit).2.StandsIn handle
        { file with cursor := min (file.cursor + limit) data.length } data := by
  have hsome : (fs.handles.get? handle).isSome = true := by rw [h.inUse]; rfl
  have hread : fs.read handle limit = (some ((data.drop file.cursor).take limit),
      fs.moveTo handle file (min (file.cursor + limit) data.length)) := by
    unfold FileSystem.read
    rw [h.inUse]
    dsimp only
    rw [h.entry]
    dsimp only
    rw [Nat.min_eq_left hcursor, List.length_take, List.length_drop]
    congr 2
    omega
  rw [hread]
  refine ⟨rfl, ?_, h.entry, h.sound.set handle _⟩
  exact (IdTable.get?_set _ hsome _ handle).trans (if_pos rfl)

theorem StandsIn.write (h : fs.StandsIn handle file data) (hmode : file.mode ≠ .read)
    (hcursor : file.cursor = data.length) (bytes : List UInt8) :
    (fs.write handle bytes).1 = bytes.length ∧
      (fs.write handle bytes).2.StandsIn handle
        { file with cursor := (data ++ bytes).length } (data ++ bytes) := by
  have hsome : (fs.handles.get? handle).isSome = true := by rw [h.inUse]; rfl
  have hwrite : fs.write handle bytes = (Int.ofNat bytes.length,
      (({ fs with entries := fs.entries.insert file.path ⟨false, data ++ bytes⟩ } :
        FileSystem).moveTo handle file (data ++ bytes).length).changed) := by
    unfold FileSystem.write
    rw [h.inUse]
    dsimp only
    rw [if_neg hmode, h.entry]
    dsimp only
    rw [hcursor, overwrite_length, List.length_append]
  rw [hwrite]
  refine ⟨rfl, ?_, ?_, h.sound.set handle _⟩
  · exact (IdTable.get?_set _ hsome _ handle).trans (if_pos rfl)
  · exact (entryAt?_insert rfl file.path).trans (if_pos rfl)

private theorem StandsIn.rewind (h : fs.StandsIn handle file data) :
    (fs.seek handle 0 .start).2.StandsIn handle { file with cursor := 0 } data := by
  have hsome : (fs.handles.get? handle).isSome = true := by rw [h.inUse]; rfl
  have hseek : (fs.seek handle 0 .start).2 = fs.moveTo handle file 0 := by
    unfold FileSystem.seek
    rw [h.inUse]
    dsimp only
    congr 1
    omega
  rw [hseek]
  refine ⟨?_, h.entry, h.sound.set handle _⟩
  exact (IdTable.get?_set _ hsome _ handle).trans (if_pos rfl)

private theorem StandsIn.writeAll (h : fs.StandsIn handle file data) (hmode : file.mode ≠ .read)
    (hcursor : file.cursor = data.length) (chunks : List (List UInt8)) :
    fs.answers (chunks.map fun bytes => .act (.write handle bytes)) =
        chunks.map (fun bytes => .number bytes.length) ∧
      (fs.runAll (chunks.map (Action.write handle))).StandsIn handle
        { file with cursor := (data ++ chunks.flatten).length } (data ++ chunks.flatten) := by
  induction chunks generalizing fs file data with
  | nil =>
    rw [List.flatten_nil, List.append_nil, ← hcursor]
    exact ⟨rfl, h⟩
  | cons bytes chunks ih =>
    obtain ⟨hanswer, hwritten⟩ := h.write hmode hcursor bytes
    obtain ⟨hanswers, hall⟩ := ih hwritten hmode rfl
    rw [List.flatten_cons, ← List.append_assoc]
    refine ⟨?_, hall⟩
    rw [List.map_cons, List.map_cons, answers]
    exact congrArg₂ List.cons (congrArg Response.number hanswer) hanswers

private theorem StandsIn.readAll (h : fs.StandsIn handle file data)
    (hcursor : file.cursor ≤ data.length)
    (sizes : List Nat) :
    fs.answers (sizes.map fun size => .act (.read handle size)) =
      (pieces (data.drop file.cursor) sizes).map fun bytes => .bytes (some bytes) := by
  induction sizes generalizing fs file with
  | nil => rfl
  | cons size sizes ih =>
    obtain ⟨hanswer, hread⟩ := h.read hcursor size
    have hrest := ih hread (Nat.min_le_right _ _)
    have hdrop : data.drop (min (file.cursor + size) data.length) =
        (data.drop file.cursor).drop size := by
      rw [List.drop_drop]
      by_cases hle : file.cursor + size ≤ data.length
      · rw [Nat.min_eq_left hle]
      · rw [List.drop_eq_nil_of_le (by omega), List.drop_eq_nil_of_le (by omega)]
    rw [hdrop] at hrest
    rw [List.map_cons, pieces, List.map_cons, answers]
    exact congrArg₂ List.cons (congrArg Response.bytes hanswer) hrest

theorem StandsIn.closed (h : fs.StandsIn handle file data) (other : Int) :
    (fs.close other).2.entryAt? file.path = some ⟨false, data⟩ ∧
      (fs.close other).2.handles.Sound := by
  refine ⟨(entryAt?_congr (close_entries fs other) _).trans h.entry, ?_⟩
  rw [close_handles]
  exact h.sound.erase other

/-- What is written bit by bit through a handle that was opened for writing is what the file has,
and what is read bit by bit, through a handle opened for reading before or after that handle is
given up, or through the handle itself after it went back. -/
structure ChunksComeBack (fs : FileSystem) (path : String) (chunks : List (List UInt8))
    (sizes : List Nat) (opened written : FileSystem) (handle : Int) : Prop where
  opens : fs.openFile path .write = (handle, opened)
  writes : written = opened.runAll (chunks.map (Action.write handle))
  numbers : opened.answers (chunks.map fun bytes => .act (.write handle bytes)) =
    chunks.map fun bytes => .number bytes.length
  contents : written.contents? path = some chunks.flatten
  reopened (left : FileSystem) (h : left = written ∨ left = (written.close handle).2) :
    0 ≤ (left.openFile path .read).1 ∧
      (left.openFile path .read).2.answers
          (sizes.map fun size => .act (.read (left.openFile path .read).1 size)) =
        (pieces chunks.flatten sizes).map fun bytes => .bytes (some bytes)
  rewound : (written.seek handle 0 .start).2.answers
      (sizes.map fun size => .act (.read handle size)) =
    (pieces chunks.flatten sizes).map fun bytes => .bytes (some bytes)

theorem chunksComeBack (hsound : fs.handles.Sound) (path : String)
    (h : 0 ≤ (fs.openFile path .write).1) (chunks : List (List UInt8)) (sizes : List Nat) :
    ∃ opened written handle, fs.ChunksComeBack path chunks sizes opened written handle := by
  have hstands := standsIn_openFile_write hsound h
  obtain ⟨handle, opened, hopened⟩ : ∃ handle opened, fs.openFile path .write = (handle, opened) :=
    ⟨_, _, rfl⟩
  rw [hopened] at hstands
  obtain ⟨hanswers, hwritten⟩ := hstands.writeAll (by simp) rfl chunks
  rw [List.nil_append] at hwritten
  have hentry : (opened.runAll (chunks.map (Action.write handle))).entryAt? (normalize path) =
      some ⟨false, chunks.flatten⟩ := hwritten.entry
  refine ⟨opened, _, handle, hopened, rfl, hanswers, ?_, fun left hleft => ?_, ?_⟩
  · unfold contents?
    rw [hentry]
    rfl
  · have hkept : left.entryAt? (normalize path) = some ⟨false, chunks.flatten⟩ ∧
        left.handles.Sound := by
      obtain rfl | rfl := hleft
      · exact ⟨hentry, hwritten.sound⟩
      · exact hwritten.closed handle
    obtain ⟨hhandle, hstands⟩ := standsIn_openFile_read hkept.2 hkept.1
    exact ⟨hhandle, hstands.readAll (Nat.zero_le _) sizes⟩
  · exact hwritten.rewind.readAll (Nat.zero_le _) sizes

end ControlLogic.FileSystem
