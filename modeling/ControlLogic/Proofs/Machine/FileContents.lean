import ControlLogic.Machine.Files
import ControlLogic.Proofs.FileSystem.Chunks
import ControlLogic.Proofs.Machine.Access

/-!
What files give back. A file system answers as lists of bytes do, in whatever order its files are
used through however many handles. Bytes written bit by bit are read bit by bit, and a text of
characters that have a byte comes back as it was, as far as the variable it is read into takes it.
-/

set_option autoImplicit false
set_option relaxedAutoImplicit false

namespace ControlLogic

/-! ### Texts as bytes -/

def Text.IsBytes (s : String) : Prop :=
  ∀ c ∈ s.toList, c.toNat ≤ 0xFF

private theorem Text.ofByte_toByte {c : Char} (h : c.toNat ≤ 0xFF) : ofByte (toByte c) = c := by
  unfold ofByte toByte
  have hbyte : c.toNat < 256 := Nat.lt_succ_of_le h
  rw [if_pos hbyte, UInt8.toNat_ofNat_of_lt' hbyte, Char.ofNat_toNat]

private theorem Text.IsBytes.ofBytes_toBytes {s : String} (h : IsBytes s) :
    ofBytes (toBytes s) = s := by
  have hsame : s.toList.map (ofByte ∘ toByte) = s.toList :=
    (List.map_congr_left fun c hc => ofByte_toByte (h c hc)).trans (List.map_id _)
  unfold ofBytes toBytes
  rw [List.map_map, hsame, String.ofList_toList]

private theorem Text.length_toBytes (s : String) : (toBytes s).length = s.length := by
  unfold toBytes
  rw [List.length_map, String.length_toList]

namespace Run

variable {eval : Expr → Run Value} {args : List Expr} {m m₁ m₂ m₃ : Machine} {handle : Int}

/-- A text is written to a file: `args` are the handle, the text and, if there is a third, how many
characters of it, which are at least all; they are evaluated in a machine that then has some files.
-/
def WritesText (eval : Expr → Run Value) (args : List Expr) (m : Machine) (files : FileSystem)
    (handle : Int) (text : String) : Prop :=
  ∃ m₁ m₂ m₃, argNumber eval args 0 m = .ok handle m₁ ∧ argText eval args 1 m₁ = .ok text m₂ ∧
    (args.length ≤ 2 ∧ m₃ = m₂ ∨
      2 < args.length ∧ ∃ count, argNumber eval args 2 m₂ = .ok count m₃ ∧ text.length ≤ count) ∧
    m₃.files = files

private theorem fileWrite_ok {files : FileSystem} {text : String}
    (h : WritesText eval args m files handle text) :
    ∃ m', fileWrite eval args m = .ok (.number (files.write handle (Text.toBytes text)).1) m' ∧
      m'.files = (files.write handle (Text.toBytes text)).2 := by
  obtain ⟨m₁, m₂, m₃, hhandle, htext, hcount, rfl⟩ := h
  refine ⟨{ m₃ with files := (m₃.files.write handle (Text.toBytes text)).2 }, ?_, rfl⟩
  unfold fileWrite
  rw [bind_ok hhandle, bind_ok htext]
  obtain ⟨hargs, rfl⟩ | ⟨hargs, count, hnumber, hall⟩ := hcount
  · rw [if_neg (Nat.not_lt.mpr hargs)]
    rfl
  · have htake : (Text.toBytes text).take count.toNat = Text.toBytes text :=
      List.take_of_length_le (by rw [Text.length_toBytes]; omega)
    rw [if_pos hargs]
    refine (bind_ok hnumber _).trans ?_
    rw [htake]
    rfl

/-- A file is read into a variable that takes texts: `args` are the handle, the variable and how
many characters to read at most; they are evaluated in a machine that then has some files. -/
def ReadsInto (eval : Expr → Run Value) (args : List Expr) (m : Machine) (files : FileSystem)
    (handle limit : Int) (key : SlotKey) (capacity : Nat) : Prop :=
  ∃ place m₁ m₂ m₃ old, args[1]? = some place ∧ place.isPlace = true ∧
    argNumber eval args 0 m = .ok handle m₁ ∧ argNumber eval args 2 m₁ = .ok limit m₂ ∧
    m₂.files = files ∧
    resolveKey eval place { m₂ with files := (files.read handle limit.toNat).2 } = .ok key m₃ ∧
    m₃.scope.get? key = some ⟨old, .text capacity⟩

private theorem fileRead_ok {files : FileSystem} {limit : Int} {key : SlotKey} {capacity : Nat}
    (h : ReadsInto eval args m files handle limit key capacity) {bytes : List UInt8}
    (hread : (files.read handle limit.toNat).1 = some bytes) :
    ∃ m', fileRead eval args m = .ok (.number bytes.length) m' ∧
      m'.scope.get? key =
        some ⟨.text (Value.truncate capacity (Text.ofBytes bytes)), .text capacity⟩ := by
  obtain ⟨place, m₁, m₂, m₃, old, hplace, hisPlace, hhandle, hlimit, rfl, hkey, hslot⟩ := h
  have htaken : withFiles (·.read handle limit.toNat) m₂ =
      .ok (some bytes) { m₂ with files := (m₂.files.read handle limit.toNat).2 } := by
    rw [← hread]
    rfl
  have hstored : storeText eval args 1 (Text.ofBytes bytes)
      { m₂ with files := (m₂.files.read handle limit.toNat).2 } =
        .ok () (m₃.writeSlot key ⟨old, .text capacity⟩ (.text (Text.ofBytes bytes))) := by
    unfold storeText
    rw [hplace]
    dsimp only
    rw [if_pos hisPlace, bind_ok hkey]
    exact writeKey_of_target (Machine.target_of_get? hslot) _
  have hread : fileRead eval args m = .ok (.number bytes.length)
      (m₃.writeSlot key ⟨old, .text capacity⟩ (.text (Text.ofBytes bytes))) := by
    unfold fileRead
    rw [bind_ok hhandle, bind_ok hlimit, bind_ok htaken]
    exact bind_ok hstored _
  exact ⟨_, hread, Machine.get?_writeSlot hslot _⟩

end Run

/-- A text that is written to a file through a handle that was opened for writing is what is read
from the file, through a handle opened for reading before or after that one is given up, as far as
the variable takes it. -/
def TextComesBack (fs : FileSystem) (path text : String) : Prop :=
  ∀ {eval : Expr → Run Value} {args : List Expr} {m : Machine},
    Run.WritesText eval args m (fs.openFile path .write).2 (fs.openFile path .write).1 text →
    ∃ m', Run.fileWrite eval args m = .ok (.number text.length) m' ∧
      ∀ left, left = m'.files ∨ left = (m'.files.close (fs.openFile path .write).1).2 →
        0 ≤ (left.openFile path .read).1 ∧
          ∀ {eval : Expr → Run Value} {args : List Expr} {m : Machine} {limit : Int} {key : SlotKey}
            {capacity : Nat},
            Run.ReadsInto eval args m (left.openFile path .read).2 (left.openFile path .read).1
              limit key capacity → text.length ≤ limit →
            ∃ m', Run.fileRead eval args m = .ok (.number text.length) m' ∧
              m'.scope.get? key = some ⟨.text (Value.truncate capacity text), .text capacity⟩

private theorem textComesBack {fs : FileSystem} (hsound : fs.handles.Sound) {path : String}
    (h : 0 ≤ (fs.openFile path .write).1) {text : String} (htext : Text.IsBytes text) :
    TextComesBack fs path text := by
  intro eval args m hwrites
  obtain ⟨m', hwrite, hfiles⟩ := Run.fileWrite_ok hwrites
  obtain ⟨hnumber, hstands⟩ :=
    (FileSystem.standsIn_openFile_write hsound h).write (by simp) rfl (Text.toBytes text)
  rw [← hfiles, List.nil_append] at hstands
  rw [hnumber, Text.length_toBytes] at hwrite
  refine ⟨m', hwrite, fun left hleft => ?_⟩
  have hkept : left.entryAt? (FileSystem.normalize path) = some ⟨false, Text.toBytes text⟩ ∧
      left.handles.Sound := by
    obtain rfl | rfl := hleft
    · exact ⟨hstands.entry, hstands.sound⟩
    · exact hstands.closed _
  obtain ⟨hhandle, hreads⟩ := FileSystem.standsIn_openFile_read hkept.2 hkept.1
  refine ⟨hhandle, fun {eval args m limit key capacity} hinto hlimit => ?_⟩
  obtain ⟨hbytes, -⟩ := hreads.read (Nat.zero_le _) limit.toNat
  have hall : ((Text.toBytes text).drop 0).take limit.toNat = Text.toBytes text :=
    List.take_of_length_le (by rw [List.drop_zero, Text.length_toBytes]; omega)
  obtain ⟨m'', hread, hslot⟩ := Run.fileRead_ok hinto (hbytes.trans (congrArg some hall))
  rw [Text.length_toBytes] at hread
  rw [htext.ofBytes_toBytes] at hslot
  exact ⟨m'', hread, hslot⟩

/--
Over every sequence of requests through any number of handles, a file system answers as lists of
bytes do, and no place is ever beyond them. Whatever was done before, bytes that are written bit by
bit through a handle that has just been opened are read bit by bit, and so is a text of characters
that have a byte.
-/
theorem files_answer_as_byte_lists :
    (∀ requests, ({} : Archive).answers requests = some (({} : FileSystem).answers requests)) ∧
      ∀ (actions : List FileSystem.Action) (path : String),
        let fs := ({} : FileSystem).runAll actions
        0 ≤ (fs.openFile path .write).1 →
          (∀ chunks sizes,
            (∃ opened written handle, fs.ChunksComeBack path chunks sizes opened written handle) ∧
              (FileSystem.pieces chunks.flatten sizes).flatten =
                chunks.flatten.take (sizes.foldr (· + ·) 0)) ∧
            ∀ text, Text.IsBytes text → TextComesBack fs path text := by
  refine ⟨fun requests => Archive.Mirrors.new.answers requests, fun actions path => ?_⟩
  intro fs h
  have hsound : fs.handles.Sound := FileSystem.sound_runAll .empty actions
  exact ⟨fun chunks sizes => ⟨FileSystem.chunksComeBack hsound path h chunks sizes,
    FileSystem.flatten_pieces _ _⟩, fun text htext => textComesBack hsound h htext⟩

/-- A handle that stands behind the second byte of a file that is then emptied through another one
writes behind two zeros. Later, bytes and a text that are written to another file come back. -/
theorem gap_is_filled_with_zeros :
    let requests : List FileSystem.Request :=
      [.act (.openFile "/user/a" .write), .act (.write 0 [1, 2]), .act (.openFile "/user/a" .write),
        .act (.write 0 [3]), .contents "/user/a"]
    let fs := ({} : FileSystem).runAll [.openFile "/user/a" .write, .write 0 [1, 2]]
    ({} : Archive).answers requests =
        some [.number 0, .number 2, .number 1, .number 1, .bytes (some [0, 0, 3])] ∧
      0 ≤ (fs.openFile "/user/b" .write).1 ∧
      (∃ opened written handle,
        fs.ChunksComeBack "/user/b" [[1, 2], [3]] [1, 5] opened written handle) ∧
      Text.IsBytes "café" ∧ TextComesBack fs "/user/b" "café" := by
  intro requests fs
  have hanswers : ({} : FileSystem).answers requests =
      [.number 0, .number 2, .number 1, .number 1, .bytes (some [0, 0, 3])] := by
    decide +kernel
  have hopen : 0 ≤ (fs.openFile "/user/b" .write).1 := by decide +kernel
  have htext : Text.IsBytes "café" := by simp [Text.IsBytes]
  obtain ⟨hlists, hcome⟩ := files_answer_as_byte_lists
  obtain ⟨hchunks, htexts⟩ := hcome _ _ hopen
  exact ⟨(hlists requests).trans (congrArg some hanswers), hopen, (hchunks _ _).1, htext,
    htexts _ htext⟩

end ControlLogic
