import PacketRelay.Schema.Field

/-!
# The fields of each message type

The field tables of the messages, in the order of the field numbers.
-/

namespace PacketRelay.Schema

/-- The slots of a message type in ascending order of their field numbers. -/
def MessageType.slots : MessageType → List Slot
  | .height => [.single ⟨1, "revision_number", .uint64⟩, .single ⟨2, "revision_height", .uint64⟩]
  | .msgCreateClient => [
      .single ⟨1, "client_state", (.message .any)⟩,
      .single ⟨2, "consensus_state", (.message .any)⟩,
      .single ⟨3, "signer", .text⟩]
  | .msgUpdateClient => [
      .single ⟨1, "client_id", .text⟩,
      .single ⟨2, "client_message", (.message .any)⟩,
      .single ⟨3, "signer", .text⟩]
  | .msgUpgradeClient => [
      .single ⟨1, "client_id", .text⟩,
      .single ⟨2, "client_state", (.message .any)⟩,
      .single ⟨3, "consensus_state", (.message .any)⟩,
      .single ⟨4, "proof_upgrade_client", .bytes⟩,
      .single ⟨5, "proof_upgrade_consensus_state", .bytes⟩,
      .single ⟨6, "signer", .text⟩]
  | .msgSubmitMisbehaviour => [
      .single ⟨1, "client_id", .text⟩,
      .single ⟨2, "misbehaviour", (.message .any)⟩,
      .single ⟨3, "signer", .text⟩]
  | .merkleProof => [.repeated ⟨1, "proofs", (.message .commitmentProof)⟩]
  | .msgRecvPacket => [
      .single ⟨1, "packet", (.message .packet)⟩,
      .single ⟨2, "proof_commitment", .bytes⟩,
      .single ⟨3, "proof_height", (.message .height)⟩,
      .single ⟨4, "signer", .text⟩]
  | .msgTimeout => [
      .single ⟨1, "packet", (.message .packet)⟩,
      .single ⟨2, "proof_unreceived", .bytes⟩,
      .single ⟨3, "proof_height", (.message .height)⟩,
      .single ⟨4, "next_sequence_recv", .uint64⟩,
      .single ⟨5, "signer", .text⟩]
  | .msgTimeoutOnClose => [
      .single ⟨1, "packet", (.message .packet)⟩,
      .single ⟨2, "proof_unreceived", .bytes⟩,
      .single ⟨3, "proof_close", .bytes⟩,
      .single ⟨4, "proof_height", (.message .height)⟩,
      .single ⟨5, "next_sequence_recv", .uint64⟩,
      .single ⟨6, "signer", .text⟩,
      .single ⟨7, "counterparty_upgrade_sequence", .uint64⟩]
  | .msgAcknowledgement => [
      .single ⟨1, "packet", (.message .packet)⟩,
      .single ⟨2, "acknowledgement", .bytes⟩,
      .single ⟨3, "proof_acked", .bytes⟩,
      .single ⟨4, "proof_height", (.message .height)⟩,
      .single ⟨5, "signer", .text⟩]
  | .msgChannelOpenInit => [
      .single ⟨1, "port_id", .text⟩,
      .single ⟨2, "channel", (.message .channel)⟩,
      .single ⟨3, "signer", .text⟩]
  | .msgChannelOpenTry => [
      .single ⟨1, "port_id", .text⟩,
      .single ⟨2, "previous_channel_id", .text⟩,
      .single ⟨3, "channel", (.message .channel)⟩,
      .single ⟨4, "counterparty_version", .text⟩,
      .single ⟨5, "proof_init", .bytes⟩,
      .single ⟨6, "proof_height", (.message .height)⟩,
      .single ⟨7, "signer", .text⟩]
  | .msgChannelOpenAck => [
      .single ⟨1, "port_id", .text⟩,
      .single ⟨2, "channel_id", .text⟩,
      .single ⟨3, "counterparty_channel_id", .text⟩,
      .single ⟨4, "counterparty_version", .text⟩,
      .single ⟨5, "proof_try", .bytes⟩,
      .single ⟨6, "proof_height", (.message .height)⟩,
      .single ⟨7, "signer", .text⟩]
  | .msgChannelOpenConfirm => [
      .single ⟨1, "port_id", .text⟩,
      .single ⟨2, "channel_id", .text⟩,
      .single ⟨3, "proof_ack", .bytes⟩,
      .single ⟨4, "proof_height", (.message .height)⟩,
      .single ⟨5, "signer", .text⟩]
  | .msgChannelCloseInit => [
      .single ⟨1, "port_id", .text⟩,
      .single ⟨2, "channel_id", .text⟩,
      .single ⟨3, "signer", .text⟩]
  | .msgChannelCloseConfirm => [
      .single ⟨1, "port_id", .text⟩,
      .single ⟨2, "channel_id", .text⟩,
      .single ⟨3, "proof_init", .bytes⟩,
      .single ⟨4, "proof_height", (.message .height)⟩,
      .single ⟨5, "signer", .text⟩,
      .single ⟨6, "counterparty_upgrade_sequence", .uint64⟩]
  | .connectionEnd => [
      .single ⟨1, "client_id", .text⟩,
      .repeated ⟨2, "versions", (.message .connectionVersion)⟩,
      .single ⟨3, "state", .enumeration⟩,
      .single ⟨4, "counterparty", (.message .connectionCounterparty)⟩,
      .single ⟨5, "delay_period", .uint64⟩]
  | .msgConnectionOpenInit => [
      .single ⟨1, "client_id", .text⟩,
      .single ⟨2, "counterparty", (.message .connectionCounterparty)⟩,
      .single ⟨3, "version", (.message .connectionVersion)⟩,
      .single ⟨4, "delay_period", .uint64⟩,
      .single ⟨5, "signer", .text⟩]
  | .msgConnectionOpenTry => [
      .single ⟨1, "client_id", .text⟩,
      .single ⟨2, "previous_connection_id", .text⟩,
      .single ⟨3, "client_state", (.message .any)⟩,
      .single ⟨4, "counterparty", (.message .connectionCounterparty)⟩,
      .single ⟨5, "delay_period", .uint64⟩,
      .repeated ⟨6, "counterparty_versions", (.message .connectionVersion)⟩,
      .single ⟨7, "proof_height", (.message .height)⟩,
      .single ⟨8, "proof_init", .bytes⟩,
      .single ⟨9, "proof_client", .bytes⟩,
      .single ⟨10, "proof_consensus", .bytes⟩,
      .single ⟨11, "consensus_height", (.message .height)⟩,
      .single ⟨12, "signer", .text⟩,
      .single ⟨13, "host_consensus_state_proof", .bytes⟩]
  | .msgConnectionOpenAck => [
      .single ⟨1, "connection_id", .text⟩,
      .single ⟨2, "counterparty_connection_id", .text⟩,
      .single ⟨3, "version", (.message .connectionVersion)⟩,
      .single ⟨4, "client_state", (.message .any)⟩,
      .single ⟨5, "proof_height", (.message .height)⟩,
      .single ⟨6, "proof_try", .bytes⟩,
      .single ⟨7, "proof_client", .bytes⟩,
      .single ⟨8, "proof_consensus", .bytes⟩,
      .single ⟨9, "consensus_height", (.message .height)⟩,
      .single ⟨10, "signer", .text⟩,
      .single ⟨11, "host_consensus_state_proof", .bytes⟩]
  | .msgConnectionOpenConfirm => [
      .single ⟨1, "connection_id", .text⟩,
      .single ⟨2, "proof_ack", .bytes⟩,
      .single ⟨3, "proof_height", (.message .height)⟩,
      .single ⟨4, "signer", .text⟩]
  | .msgTransfer => [
      .single ⟨1, "source_port", .text⟩,
      .single ⟨2, "source_channel", .text⟩,
      .single ⟨3, "token", (.message .coin)⟩,
      .single ⟨4, "sender", .text⟩,
      .single ⟨5, "receiver", .text⟩,
      .single ⟨6, "timeout_height", (.message .height)⟩,
      .single ⟨7, "timeout_timestamp", .uint64⟩,
      .single ⟨8, "memo", .text⟩]
  | .clientState => [
      .single ⟨1, "chain_id", .text⟩,
      .single ⟨2, "trust_level", (.message .fraction)⟩,
      .single ⟨3, "trusting_period", (.message .duration)⟩,
      .single ⟨4, "unbonding_period", (.message .duration)⟩,
      .single ⟨5, "max_clock_drift", (.message .duration)⟩,
      .single ⟨6, "frozen_height", (.message .height)⟩,
      .single ⟨7, "latest_height", (.message .height)⟩,
      .repeated ⟨8, "proof_specs", (.message .proofSpec)⟩,
      .repeated ⟨9, "upgrade_path", .text⟩,
      .single ⟨10, "allow_update_after_expiry", .bool⟩,
      .single ⟨11, "allow_update_after_misbehaviour", .bool⟩]
  | .consensusState => [
      .single ⟨1, "timestamp", (.message .timestamp)⟩,
      .single ⟨2, "root", (.message .merkleRoot)⟩,
      .single ⟨3, "next_validators_hash", .bytes⟩]
  | .header => [
      .single ⟨1, "signed_header", (.message .signedHeader)⟩,
      .single ⟨2, "validator_set", (.message .validatorSet)⟩,
      .single ⟨3, "trusted_height", (.message .height)⟩,
      .single ⟨4, "trusted_validators", (.message .validatorSet)⟩]
  | .msgSubmitQueryResponse => [
      .single ⟨1, "chain_id", .text⟩,
      .single ⟨2, "query_id", .text⟩,
      .single ⟨3, "result", .bytes⟩,
      .single ⟨4, "proof_ops", (.message .proofOps)⟩,
      .single ⟨5, "height", .int64⟩,
      .single ⟨6, "from_address", .text⟩]
  | .queryAccountRequest => [.single ⟨1, "address", .text⟩]
  | .queryAccountResponse => [.single ⟨1, "account", (.message .any)⟩]
  | .baseAccount => [
      .single ⟨1, "address", .text⟩,
      .single ⟨2, "pub_key", (.message .any)⟩,
      .single ⟨3, "account_number", .uint64⟩,
      .single ⟨4, "sequence", .uint64⟩]
  | .txBody => [
      .repeated ⟨1, "messages", (.message .any)⟩,
      .single ⟨2, "memo", .text⟩,
      .single ⟨3, "timeout_height", .uint64⟩,
      .repeated ⟨1023, "extension_options", (.message .any)⟩,
      .repeated ⟨2047, "non_critical_extension_options", (.message .any)⟩]
  | .authInfo => [
      .repeated ⟨1, "signer_infos", (.message .signerInfo)⟩,
      .single ⟨2, "fee", (.message .fee)⟩,
      .single ⟨3, "tip", (.message .tip)⟩]
  | .signDoc => [
      .single ⟨1, "body_bytes", .bytes⟩,
      .single ⟨2, "auth_info_bytes", .bytes⟩,
      .single ⟨3, "chain_id", .text⟩,
      .single ⟨4, "account_number", .uint64⟩]
  | .txRaw => [
      .single ⟨1, "body_bytes", .bytes⟩,
      .single ⟨2, "auth_info_bytes", .bytes⟩,
      .repeated ⟨3, "signatures", .bytes⟩]
  | .simulateRequest => [.single ⟨1, "tx", (.message .tx)⟩, .single ⟨2, "tx_bytes", .bytes⟩]
  | .simulateResponse => [
      .single ⟨1, "gas_info", (.message .gasInfo)⟩,
      .single ⟨2, "result", (.message .simulationResult)⟩]
  | .secp256k1Key => [.single ⟨1, "key", .bytes⟩]
  | .any => [.single ⟨1, "type_url", .text⟩, .single ⟨2, "value", .bytes⟩]
  | .commitmentProof => [
      .choice [
        ⟨1, "exist", (.message .existenceProof)⟩,
        ⟨2, "nonexist", (.message .nonExistenceProof)⟩,
        ⟨3, "batch", (.message .batchProof)⟩,
        ⟨4, "compressed", (.message .compressedBatchProof)⟩]]
  | .packet => [
      .single ⟨1, "sequence", .uint64⟩,
      .single ⟨2, "source_port", .text⟩,
      .single ⟨3, "source_channel", .text⟩,
      .single ⟨4, "destination_port", .text⟩,
      .single ⟨5, "destination_channel", .text⟩,
      .single ⟨6, "data", .bytes⟩,
      .single ⟨7, "timeout_height", (.message .height)⟩,
      .single ⟨8, "timeout_timestamp", .uint64⟩]
  | .channel => [
      .single ⟨1, "state", .enumeration⟩,
      .single ⟨2, "ordering", .enumeration⟩,
      .single ⟨3, "counterparty", (.message .channelCounterparty)⟩,
      .repeated ⟨4, "connection_hops", .text⟩,
      .single ⟨5, "version", .text⟩,
      .single ⟨6, "upgrade_sequence", .uint64⟩]
  | .connectionVersion => [.single ⟨1, "identifier", .text⟩, .repeated ⟨2, "features", .text⟩]
  | .connectionCounterparty => [
      .single ⟨1, "client_id", .text⟩,
      .single ⟨2, "connection_id", .text⟩,
      .single ⟨3, "prefix", (.message .merklePrefix)⟩]
  | .coin => [.single ⟨1, "denom", .text⟩, .single ⟨2, "amount", .text⟩]
  | .fraction => [.single ⟨1, "numerator", .uint64⟩, .single ⟨2, "denominator", .uint64⟩]
  | .duration => [.single ⟨1, "seconds", .int64⟩, .single ⟨2, "nanos", .int32⟩]
  | .proofSpec => [
      .single ⟨1, "leaf_spec", (.message .leafOp)⟩,
      .single ⟨2, "inner_spec", (.message .innerSpec)⟩,
      .single ⟨3, "max_depth", .int32⟩,
      .single ⟨4, "min_depth", .int32⟩,
      .single ⟨5, "prehash_key_before_comparison", .bool⟩]
  | .timestamp => [.single ⟨1, "seconds", .int64⟩, .single ⟨2, "nanos", .int32⟩]
  | .merkleRoot => [.single ⟨1, "hash", .bytes⟩]
  | .signedHeader => [
      .single ⟨1, "header", (.message .blockHeader)⟩,
      .single ⟨2, "commit", (.message .commit)⟩]
  | .validatorSet => [
      .repeated ⟨1, "validators", (.message .validator)⟩,
      .single ⟨2, "proposer", (.message .validator)⟩,
      .single ⟨3, "total_voting_power", .int64⟩]
  | .proofOps => [.repeated ⟨1, "ops", (.message .proofOp)⟩]
  | .signerInfo => [
      .single ⟨1, "public_key", (.message .any)⟩,
      .single ⟨2, "mode_info", (.message .modeInfo)⟩,
      .single ⟨3, "sequence", .uint64⟩]
  | .fee => [
      .repeated ⟨1, "amount", (.message .coin)⟩,
      .single ⟨2, "gas_limit", .uint64⟩,
      .single ⟨3, "payer", .text⟩,
      .single ⟨4, "granter", .text⟩]
  | .tip => [.repeated ⟨1, "amount", (.message .coin)⟩, .single ⟨2, "tipper", .text⟩]
  | .tx => [
      .single ⟨1, "body", (.message .txBody)⟩,
      .single ⟨2, "auth_info", (.message .authInfo)⟩,
      .repeated ⟨3, "signatures", .bytes⟩]
  | .gasInfo => [.single ⟨1, "gas_wanted", .uint64⟩, .single ⟨2, "gas_used", .uint64⟩]
  | .simulationResult => [
      .single ⟨1, "data", .bytes⟩,
      .single ⟨2, "log", .text⟩,
      .repeated ⟨3, "events", (.message .event)⟩,
      .repeated ⟨4, "msg_responses", (.message .any)⟩]
  | .existenceProof => [
      .single ⟨1, "key", .bytes⟩,
      .single ⟨2, "value", .bytes⟩,
      .single ⟨3, "leaf", (.message .leafOp)⟩,
      .repeated ⟨4, "path", (.message .innerOp)⟩]
  | .nonExistenceProof => [
      .single ⟨1, "key", .bytes⟩,
      .single ⟨2, "left", (.message .existenceProof)⟩,
      .single ⟨3, "right", (.message .existenceProof)⟩]
  | .batchProof => [.repeated ⟨1, "entries", (.message .batchEntry)⟩]
  | .compressedBatchProof => [
      .repeated ⟨1, "entries", (.message .compressedBatchEntry)⟩,
      .repeated ⟨2, "lookup_inners", (.message .innerOp)⟩]
  | .channelCounterparty => [.single ⟨1, "port_id", .text⟩, .single ⟨2, "channel_id", .text⟩]
  | .merklePrefix => [.single ⟨1, "key_prefix", .bytes⟩]
  | .leafOp => [
      .single ⟨1, "hash", .enumeration⟩,
      .single ⟨2, "prehash_key", .enumeration⟩,
      .single ⟨3, "prehash_value", .enumeration⟩,
      .single ⟨4, "length", .enumeration⟩,
      .single ⟨5, "prefix", .bytes⟩]
  | .innerSpec => [
      .repeated ⟨1, "child_order", .int32⟩,
      .single ⟨2, "child_size", .int32⟩,
      .single ⟨3, "min_prefix_length", .int32⟩,
      .single ⟨4, "max_prefix_length", .int32⟩,
      .single ⟨5, "empty_child", .bytes⟩,
      .single ⟨6, "hash", .enumeration⟩]
  | .blockHeader => [
      .single ⟨1, "version", (.message .blockVersion)⟩,
      .single ⟨2, "chain_id", .text⟩,
      .single ⟨3, "height", .int64⟩,
      .single ⟨4, "time", (.message .timestamp)⟩,
      .single ⟨5, "last_block_id", (.message .blockId)⟩,
      .single ⟨6, "last_commit_hash", .bytes⟩,
      .single ⟨7, "data_hash", .bytes⟩,
      .single ⟨8, "validators_hash", .bytes⟩,
      .single ⟨9, "next_validators_hash", .bytes⟩,
      .single ⟨10, "consensus_hash", .bytes⟩,
      .single ⟨11, "app_hash", .bytes⟩,
      .single ⟨12, "last_results_hash", .bytes⟩,
      .single ⟨13, "evidence_hash", .bytes⟩,
      .single ⟨14, "proposer_address", .bytes⟩]
  | .commit => [
      .single ⟨1, "height", .int64⟩,
      .single ⟨2, "round", .int32⟩,
      .single ⟨3, "block_id", (.message .blockId)⟩,
      .repeated ⟨4, "signatures", (.message .commitSig)⟩]
  | .validator => [
      .single ⟨1, "address", .bytes⟩,
      .single ⟨2, "pub_key", (.message .publicKey)⟩,
      .single ⟨3, "voting_power", .int64⟩,
      .single ⟨4, "proposer_priority", .int64⟩]
  | .proofOp => [
      .single ⟨1, "type", .text⟩,
      .single ⟨2, "key", .bytes⟩,
      .single ⟨3, "data", .bytes⟩]
  | .modeInfo => [
      .choice [
        ⟨1, "single", (.message .singleMode)⟩,
        ⟨2, "multi", (.message .multiMode)⟩]]
  | .event => [
      .single ⟨1, "type", .text⟩,
      .repeated ⟨2, "attributes", (.message .eventAttribute)⟩]
  | .innerOp => [
      .single ⟨1, "hash", .enumeration⟩,
      .single ⟨2, "prefix", .bytes⟩,
      .single ⟨3, "suffix", .bytes⟩]
  | .batchEntry => [
      .choice [
        ⟨1, "exist", (.message .existenceProof)⟩,
        ⟨2, "nonexist", (.message .nonExistenceProof)⟩]]
  | .compressedBatchEntry => [
      .choice [
        ⟨1, "exist", (.message .compressedExistenceProof)⟩,
        ⟨2, "nonexist", (.message .compressedNonExistenceProof)⟩]]
  | .blockVersion => [.single ⟨1, "block", .uint64⟩, .single ⟨2, "app", .uint64⟩]
  | .blockId => [
      .single ⟨1, "hash", .bytes⟩,
      .single ⟨2, "part_set_header", (.message .partSetHeader)⟩]
  | .commitSig => [
      .single ⟨1, "block_id_flag", .enumeration⟩,
      .single ⟨2, "validator_address", .bytes⟩,
      .single ⟨3, "timestamp", (.message .timestamp)⟩,
      .single ⟨4, "signature", .bytes⟩]
  | .publicKey => [
      .choice [
        ⟨1, "ed25519", .bytes⟩,
        ⟨2, "secp256k1", .bytes⟩]]
  | .singleMode => [.single ⟨1, "mode", .enumeration⟩]
  | .multiMode => [
      .single ⟨1, "bitarray", (.message .compactBitArray)⟩,
      .repeated ⟨2, "mode_infos", (.message .modeInfo)⟩]
  | .eventAttribute => [
      .single ⟨1, "key", .bytes⟩,
      .single ⟨2, "value", .bytes⟩,
      .single ⟨3, "index", .bool⟩]
  | .compressedExistenceProof => [
      .single ⟨1, "key", .bytes⟩,
      .single ⟨2, "value", .bytes⟩,
      .single ⟨3, "leaf", (.message .leafOp)⟩,
      .repeated ⟨4, "path", .int32⟩]
  | .compressedNonExistenceProof => [
      .single ⟨1, "key", .bytes⟩,
      .single ⟨2, "left", (.message .compressedExistenceProof)⟩,
      .single ⟨3, "right", (.message .compressedExistenceProof)⟩]
  | .partSetHeader => [.single ⟨1, "total", .uint32⟩, .single ⟨2, "hash", .bytes⟩]
  | .compactBitArray => [.single ⟨1, "extra_bits_stored", .uint32⟩, .single ⟨2, "elems", .bytes⟩]

end PacketRelay.Schema
