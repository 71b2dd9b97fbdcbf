import DeployPlan.Proofs.Base64
import DeployPlan.Proofs.FileTree
import DeployPlan.Proofs.Text.Utf8
import DeployPlan.Source.Code

/-!
# The code of a file tells its bytes

The code of a file is its text or its bytes in Base64, and says which of them it is, so that the
bytes can be had again.

## Main definitions

* `Code.bytes?` — the bytes that code stands for.

## Main results

* `Code.bytes?_ofBytes` — the code of a file stands for the bytes of the file.
* `Code.binary_ofBytes_iff` — which files are shipped as bytes.
* `Code.load_eq_ok_iff`, `Code.load_eq_error_iff` — which files have code.
* `Code.load_lossless` — files with different bytes never have the same code.
-/

set_option autoImplicit false

namespace DeployPlan

namespace Code

/-- The bytes that code stands for. -/
def bytes? (code : Code) : Option (List UInt8) :=
  if code.binary then Base64.decode? code.text else some code.text.toUTF8.data.toList

/-- The code of a file is its bytes in Base64, or a text of which they are the bytes. -/
theorem ofBytes_cases (ext : String) (bytes : ByteArray) :
    ((ext = zipExtension ∨ ext = "jar" ∨ ¬ bytes.IsValidUTF8) ∧
      ofBytes ext bytes = ⟨Base64.encode bytes.data.toList, true⟩) ∨
    (¬ (ext = zipExtension ∨ ext = "jar" ∨ ¬ bytes.IsValidUTF8) ∧
      ∃ text, ofBytes ext bytes = ⟨text, false⟩ ∧ text.toUTF8 = bytes) := by
  have hext : isBinaryExtension ext = true ↔ ext = zipExtension ∨ ext = "jar" := by
    simp [isBinaryExtension]
  cases hbinary : isBinaryExtension ext with
  | true =>
    left
    rw [ofBytes, if_pos hbinary]
    rcases hext.mp hbinary with h | h <;> simp [h]
  | false =>
    rw [ofBytes, if_neg (by simp [hbinary])]
    have hplain : ¬ (ext = zipExtension ∨ ext = "jar") := by simp [← hext, hbinary]
    cases htext : String.fromUTF8? bytes with
    | none =>
      have hinvalid : ¬ bytes.IsValidUTF8 := by simp [← Text.isSome_fromUTF8?_iff, htext]
      exact .inl ⟨.inr (.inr hinvalid), rfl⟩
    | some text =>
      have hvalid : bytes.IsValidUTF8 := by simp [← Text.isSome_fromUTF8?_iff, htext]
      refine .inr ⟨?_, text, rfl, Text.toUTF8_of_fromUTF8? htext⟩
      rintro (h | h | h)
      · exact hplain (.inl h)
      · exact hplain (.inr h)
      · exact h hvalid

/-- **Which files are shipped as bytes**: archives of both kinds, and what is no text. -/
theorem binary_ofBytes_iff {ext : String} {bytes : ByteArray} :
    (ofBytes ext bytes).binary = true ↔
      ext = zipExtension ∨ ext = "jar" ∨ ¬ bytes.IsValidUTF8 := by
  rcases ofBytes_cases ext bytes with ⟨h, hcode⟩ | ⟨h, text, hcode, -⟩
  · simp [hcode, h]
  · simp [hcode, h]

/-- **The code of a file** stands for the bytes of the file. -/
theorem bytes?_ofBytes (ext : String) (bytes : ByteArray) :
    (ofBytes ext bytes).bytes? = some bytes.data.toList := by
  rcases ofBytes_cases ext bytes with ⟨-, hcode⟩ | ⟨-, text, hcode, htext⟩
  · rw [hcode, bytes?, if_pos rfl]
    exact Base64.decode?_eq_some_iff.mpr rfl
  · rw [hcode, bytes?, if_neg Bool.false_ne_true, htext]

/-- A file that can be read has code. -/
theorem load_eq_ok_iff {t : FileTree} {path ext : String} {code : Code} :
    (load t path ext).result = .ok code ↔
      ∃ bytes, t.read path = .ok bytes ∧ code = ofBytes ext bytes := by
  rw [load]
  cases t.read path <;> simp [Report.fail, eq_comm]

/-- A file that cannot be read has none, for the reason that it cannot be read. -/
theorem load_eq_error_iff {t : FileTree} {path ext : String} {failure : Failure} :
    (load t path ext).result = .error failure ↔
      ∃ fault, t.read path = .error fault ∧ failure = .unreadableSource path fault := by
  rw [load]
  cases t.read path <;> simp [Report.fail, eq_comm]

/-- **Code is lossless.**  A file that can be read has code.  It is marked as binary exactly if the
extension is that of an archive or the bytes are those of no text, and is then the bytes in Base64;
otherwise the bytes are those of its text.  No file with other bytes has the same code, whatever its
extension.

**Proof sketch.** Both forms of code can be read back, and the mark tells which of them it is: code
stands for the bytes that it was made of. -/
theorem load_lossless {t : FileTree} {path : String} {bytes : ByteArray}
    (h : t.read path = .ok bytes) (ext : String) :
    ∃ code, (load t path ext).result = .ok code ∧
      (code.binary = true →
        (∃ ns pads, Base64.Writes code.text.toList bytes.data.toList ns pads) ∧
        Base64.decode? code.text = some bytes.data.toList) ∧
      (code.binary = false → code.text.toUTF8 = bytes) ∧
      (code.binary = true ↔ ext = "zip" ∨ ext = "jar" ∨ ¬ bytes.IsValidUTF8) ∧
      ∀ (t' : FileTree) (path' ext' : String) (bytes' : ByteArray),
        t'.read path' = .ok bytes' → (load t' path' ext').result = .ok code → bytes' = bytes := by
  refine ⟨ofBytes ext bytes, load_eq_ok_iff.mpr ⟨bytes, h, rfl⟩, ?_, ?_, binary_ofBytes_iff, ?_⟩
  · intro hbinary
    rcases ofBytes_cases ext bytes with ⟨-, hcode⟩ | ⟨-, text, hcode, -⟩
    · rw [hcode, Base64.encode, String.toList_ofList]
      exact ⟨Base64.exists_writes _, Base64.decode?_eq_some_iff.mpr rfl⟩
    · simp [hcode] at hbinary
  · intro hbinary
    rcases ofBytes_cases ext bytes with ⟨-, hcode⟩ | ⟨-, text, hcode, htext⟩
    · simp [hcode] at hbinary
    · rw [hcode, htext]
  · intro t' path' ext' bytes' hread hload
    obtain ⟨other, hother, hcode⟩ := load_eq_ok_iff.mp hload
    cases hread.symm.trans hother
    have hbytes := congrArg bytes? hcode
    rw [bytes?_ofBytes, bytes?_ofBytes, Option.some.injEq] at hbytes
    exact ByteArray.ext (Array.toList_inj.mp hbytes.symm)

/-- A tree of a program, whose bytes are those of no text. -/
def sourcesTree : FileTree where
  root := .directory 0o755 [("exec", .file 0o755 ⟨#[0x7F, 0x45, 0x4C, 0x46, 0xFF]⟩)]

/-- The program can be read. -/
theorem read_sourcesTree :
    sourcesTree.read "exec" = .ok ⟨#[0x7F, 0x45, 0x4C, 0x46, 0xFF]⟩ := by
  have hresolve : sourcesTree.resolve "exec" =
      .ok (["exec"], .file 0o755 ⟨#[0x7F, 0x45, 0x4C, 0x46, 0xFF]⟩) := by
    have hsteps : FileTree.steps "exec" = ["exec"] := by decide +kernel
    refine FileTree.resolve_eq_ok_iff.mpr ⟨by decide +kernel, by decide +kernel,
      by decide +kernel, ?_⟩
    have hstart : sourcesTree.workingDirectory = [] := rfl
    rw [hstart, ite_self, hsteps, FileTree.walk, if_neg (by decide), if_neg (by decide),
      if_neg (by decide +kernel)]
    rfl
  rw [FileTree.read, hresolve]

/-- A program is shipped as bytes although its extension does not ask for it. -/
theorem load_lossless_exec :
    ∃ code, (load sourcesTree "exec" "").result = .ok code ∧ code = ⟨"f0VMRv8=", true⟩ ∧
      Base64.decode? code.text = some [0x7F, 0x45, 0x4C, 0x46, 0xFF] := by
  obtain ⟨code, hload, hbinary, -, hiff, -⟩ := load_lossless read_sourcesTree ""
  have hmarked : code.binary = true := hiff.mpr (.inr (.inr (by decide +kernel)))
  obtain ⟨bytes, hbytes, rfl⟩ := load_eq_ok_iff.mp hload
  cases read_sourcesTree.symm.trans hbytes
  exact ⟨_, hload, by decide +kernel, (hbinary hmarked).2⟩

end Code

end DeployPlan
