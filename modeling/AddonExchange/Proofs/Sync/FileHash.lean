import AddonExchange.Sync.Difference

namespace AddonExchange

theorem Md5.digest_ne_nil (message : Bytes) : Md5.digest message ≠ [] := by
  simp [Md5.digest, Md5.littleEndian]

theorem Base64.encode_ne_nil {bytes : Bytes} (nonempty : bytes ≠ []) :
    Base64.encode bytes ≠ [] := by
  cases bytes using Base64.encode.fun_cases <;> simp_all [Base64.encode]

theorem contentHash_ne_nil (bytes : Bytes) : contentHash bytes ≠ [] := by
  have encoded := Base64.encode_ne_nil (Md5.digest_ne_nil bytes)
  simpa [contentHash, Text.ofChars] using encoded

namespace File

theorem hashOf_ne_nil (file : File) : file.hashOf ≠ [] := by
  unfold hashOf
  split
  · exact List.cons_ne_nil _ _
  · exact contentHash_ne_nil _

theorem hashOf_of_hash {file : File} {hash : Text} (nonempty : hash ≠ [])
    (carried : file.hash = some hash) : file.hashOf = hash := by
  cases hash with
  | nil => exact absurd rfl nonempty
  | cons first rest => rw [hashOf, carried]

theorem hashOf_listed (file : File) : (file.listed true).hashOf = file.hashOf :=
  hashOf_of_hash file.hashOf_ne_nil rfl

end File

end AddonExchange
