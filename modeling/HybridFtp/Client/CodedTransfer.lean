import HybridFtp.Client.ClientCLI
import HybridFtp.Common.StreamGrammar
import HybridFtp.Server.Session

/-!
# Coded transfers

What becomes of a file that arrives cut, or followed by something, when a coded
transmission mode is in effect.

* `CutOrExtended`: a stream that is not the whole of another one, or more than it;
* `decode_append`: no stream that the decoder accepts goes on after its end;
* `rejected_of_cutOrExtended`: what is cut or extended is neither stored by the server nor
  used by the client.
-/

namespace HybridFtp

open TransferModeCodec

/-- What is left of the stream `s` after a cut, or `s` with something after it. -/
def CutOrExtended (s s' : Bytes) : Prop := (s' <+: s ∨ s <+: s') ∧ s' ≠ s

/-- Whether a stream is accepted does not depend on the type. -/
theorem decode_ok_type (s : Bytes) (mode : TransferMode) (type type' : TransferType) :
    (decode s mode type).ok = (decode s mode type').ok := by
  cases mode with
  | Stream => rfl
  | Block => rfl
  | Compressed =>
    rw [Bool.eq_iff_iff]
    exact (decodeStrings_ok_iff _ [] s).trans (decodeStrings_ok_iff _ [] s).symm

/-- No stream of a coded mode goes on after its end. -/
theorem decode_append {mode : TransferMode} (hmode : mode ≠ .Stream) {s t : Bytes}
    {type : TransferType} (h : (decode s mode type).ok = true) (ht : t ≠ []) :
    ¬(decode (s ++ t) mode type).ok = true := by
  cases mode with
  | Stream => exact absurd rfl hmode
  | Block =>
    exact Framed.not_accepts_append Blk.instantaneous (fun s => (decodeBlocks [] s).ok = true)
      (decodeBlocks_ok_iff []) h ht
  | Compressed =>
    exact Framed.not_accepts_append Piece.instantaneous
      (fun s => (decodeStrings (fillerByte type) [] s).ok = true) (decodeStrings_ok_iff _ []) h ht

theorem decode_cutOrExtended {mode : TransferMode} (hmode : mode ≠ .Stream) {s s' : Bytes}
    {type : TransferType} (h : (decode s mode type).ok = true) (hs : CutOrExtended s s')
    (type' : TransferType) : (decode s' mode type').ok = false := by
  obtain ⟨⟨t, rfl⟩ | ⟨t, rfl⟩, hne⟩ := hs
  · -- What is accepted would go on after the part.
    rw [← Bool.not_eq_true]
    intro hcut
    rw [decode_ok_type _ _ type type'] at h
    refine decode_append hmode hcut ?_ h
    rintro rfl
    exact hne (List.append_nil s').symm
  · rw [decode_ok_type _ _ type' type, ← Bool.not_eq_true]
    refine decode_append hmode h ?_
    rintro rfl
    exact hne (List.append_nil s)

/-- Of a stream that a coded mode accepts, what is cut or extended is rejected with any
    type: the server answers that it is not a valid encoding and writes no file, and the
    client does not use it. -/
theorem rejected_of_cutOrExtended {mode : TransferMode} (hmode : mode ≠ .Stream) {s s' : Bytes}
    {type : TransferType} (h : (decode s mode type).ok = true) (hs : CutOrExtended s s') :
    (∀ type', (decode s' mode type').ok = false) ∧
      (∀ (o : Outcomes) (session : SessionState) (fs : Storage) (resolvedPath : NormalPath String)
        (appendMode : Bool), session.transferMode = mode → o.received = .completed s' →
        receiveFile o session fs resolvedPath appendMode =
          answer session fs "551 Invalid transfer mode encoding.\r\n") ∧
      ∀ (o : LineOutcomes) (cli : ClientCLI) (openingReply failure : String),
        cli.transferMode = mode → o.received = .completed s' →
        ∃ codecError, ∀ use, cli.receiveData o openingReply failure use =
          (openingReply ++ "\nError: MODE decode failed: " ++ codecError, cli) := by
  have hfalse := decode_cutOrExtended hmode h hs
  refine ⟨hfalse, fun o session fs resolvedPath appendMode hsession hreceived => ?_,
    fun o cli openingReply failure hcli hreceived => ?_⟩
  · have hstore : storeFile o session fs resolvedPath s' appendMode =
        ("551 Invalid transfer mode encoding.\r\n", fs) := by
      rw [storeFile, hsession, hfalse]
      rfl
    rw [receiveFile, hreceived]
    simp only [hstore]
  · have herror := hfalse cli.transferType
    rw [Decoded.ok, Option.isNone_eq_false_iff, Option.isSome_iff_exists] at herror
    obtain ⟨codecError, herror⟩ := herror
    refine ⟨codecError, fun use => ?_⟩
    rw [ClientCLI.receiveData, hreceived]
    simp only [hcli, herror]

/-- The EOF descriptor of MODE C, cut between its two bytes. -/
theorem rejected_of_cut_escape : (decode [0xff] .Compressed .ASCII).ok = false ∧
    ∀ (pathManager : PathManager) (fs : Storage) (resolvedPath : NormalPath String),
      receiveFile { received := .completed [0xff] } { pathManager, transferMode := .Compressed } fs
          resolvedPath false =
        answer { pathManager, transferMode := .Compressed } fs
          "551 Invalid transfer mode encoding.\r\n" := by
  have haccept : (decode [0xff, 0x40] .Compressed .ASCII).ok = true :=
    (decodeStrings_ok_iff _ [] _).2 ⟨⟨[], .eof 0x40 (by decide), by simp, trivial⟩, rfl⟩
  have hcut : CutOrExtended [0xff, 0x40] [0xff] := ⟨.inl ⟨[0x40], rfl⟩, by decide⟩
  have hrejected := rejected_of_cutOrExtended (by decide) haccept hcut
  exact ⟨hrejected.1 .ASCII, fun pathManager fs resolvedPath =>
    hrejected.2.1 _ { pathManager, transferMode := .Compressed } fs resolvedPath false rfl rfl⟩

end HybridFtp
