import CopyMint.Ethereum.Ports
import Mathlib.Data.Nat.Log

/-!
# Adaptive historical log-range scanner

The scanner walks a block range in chunks. A chunk is halved when the provider
asks for a smaller range or answers with many logs, and doubled when it answers
with few. The functions give one round of the loop; the loop itself is driven by
the executions that use it, since every round commits on its own.
-/

namespace CopyMint

/-- `ScanBatch`. -/
structure ScanBatch where
  startBlock : ℕ
  endBlock : ℕ
  endBlockHash : Hexadecimal.Text
  logs : List EvmLog

/-- A scanner whose chunk bounds passed the constructor's check. -/
structure AdaptiveHistoricalScanner where
  initialChunk : ℕ
  maximumChunk : ℕ
  denseLogThreshold : ℤ := 5000
  positive : 1 ≤ initialChunk
  ordered : initialChunk ≤ maximumChunk

namespace AdaptiveHistoricalScanner

/-- The last block of the next range. -/
def batchEnd (cursor chunk endBlock : ℕ) : ℕ := min (cursor + chunk - 1) endBlock

/-- The chunk after a failed request, unless the failure ends the scan. -/
def chunkAfterError (error : ProviderError) (chunk : ℕ) : Option ℕ :=
  if error.splitRange = false ∨ chunk = 1 then none else some (max 1 (chunk / 2))

/-- The chunk after a range with a number of logs. -/
def chunkAfterLogs (scanner : AdaptiveHistoricalScanner) (logs chunk : ℕ) : ℕ :=
  if scanner.denseLogThreshold ≤ logs then max 1 (chunk / 2)
  else if (logs : ℤ) < max 1 (scanner.denseLogThreshold / 4) then
    min scanner.maximumChunk (max (chunk + 1) (chunk * 2))
  else chunk

theorem chunkAfterError_pos {error : ProviderError} {chunk next : ℕ}
    (halved : chunkAfterError error chunk = some next) : 1 ≤ next := by
  simp only [chunkAfterError] at halved
  split at halved
  · cases halved
  · cases halved
    exact le_max_left 1 _

theorem chunkAfterError_le {error : ProviderError} {chunk next : ℕ} (chunk_pos : 1 ≤ chunk)
    (halved : chunkAfterError error chunk = some next) : next ≤ chunk := by
  simp only [chunkAfterError] at halved
  split at halved
  · cases halved
  · cases halved
    omega

/-- A failure halves the chunk. -/
theorem log_chunkAfterError {error : ProviderError} {chunk next : ℕ} (chunk_pos : 1 ≤ chunk)
    (halved : chunkAfterError error chunk = some next) :
    Nat.log 2 next + 1 = Nat.log 2 chunk := by
  simp only [chunkAfterError] at halved
  split_ifs at halved with fatal
  have large : 2 ≤ chunk := by
    have different : chunk ≠ 1 := fun single => fatal (.inr single)
    omega
  have half : max 1 (chunk / 2) = chunk / 2 := max_eq_right (by omega)
  cases halved
  rw [half, Nat.log_of_one_lt_of_le (by decide) large]

theorem chunkAfterLogs_le (scanner : AdaptiveHistoricalScanner) (logs : ℕ) {chunk : ℕ}
    (chunk_le : chunk ≤ scanner.maximumChunk) :
    scanner.chunkAfterLogs logs chunk ≤ scanner.maximumChunk := by
  have positive := scanner.positive
  have ordered := scanner.ordered
  simp only [chunkAfterLogs]
  split_ifs
  · omega
  · exact min_le_left _ _
  · exact chunk_le

theorem chunkAfterLogs_pos (scanner : AdaptiveHistoricalScanner) (logs : ℕ) {chunk : ℕ}
    (chunk_pos : 1 ≤ chunk) : 1 ≤ scanner.chunkAfterLogs logs chunk := by
  have positive := scanner.positive
  have ordered := scanner.ordered
  simp only [chunkAfterLogs]
  split
  · exact le_max_left 1 _
  · split
    · omega
    · exact chunk_pos

theorem cursor_le_batchEnd {cursor chunk endBlock : ℕ} (chunk_pos : 1 ≤ chunk)
    (cursor_le : cursor ≤ endBlock) : cursor ≤ batchEnd cursor chunk endBlock := by
  simp only [batchEnd]
  omega

theorem batchEnd_le (cursor chunk endBlock : ℕ) : batchEnd cursor chunk endBlock ≤ endBlock :=
  min_le_right _ _

end AdaptiveHistoricalScanner

end CopyMint
