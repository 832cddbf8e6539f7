import ProtoSchema.Disk.Tree
import ProtoSchema.Main
import ProtoSchema.Proofs.File.Candidates
import ProtoSchema.Proofs.File.Joined
import ProtoSchema.Proofs.File.KeywordOrder
import ProtoSchema.Proofs.File.Mentions
import ProtoSchema.Proofs.File.Positions
import ProtoSchema.Proofs.File.Returns
import ProtoSchema.Proofs.Guarded.FrontEnd
import ProtoSchema.Proofs.Guarded.Literals
import ProtoSchema.Proofs.Path.Roots
import ProtoSchema.Proofs.Reader.FirstFault
import ProtoSchema.Proofs.Reader.Skipping
import ProtoSchema.Proofs.Search.Access
import ProtoSchema.Proofs.Search.Blame
import ProtoSchema.Proofs.Search.Failure
import ProtoSchema.Proofs.Search.Listing
import ProtoSchema.Proofs.Search.Memory
import ProtoSchema.Proofs.Search.Places
import ProtoSchema.Proofs.Search.Union
import ProtoSchema.Proofs.Token.Display
import ProtoSchema.Proofs.Token.Rows
import ProtoSchema.Resolve.Memo
import ProtoSchema.Token.Cursor
