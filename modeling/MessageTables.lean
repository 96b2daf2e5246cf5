import MessageTables.Error.Diagnostic
import MessageTables.FileSystem.Arrangement
import MessageTables.LookupModule.Program
import MessageTables.LookupModule.Reader
import MessageTables.Main
import MessageTables.Proofs.Batch.Containment
import MessageTables.Proofs.Batch.Destinations
import MessageTables.Proofs.Batch.Incremental
import MessageTables.Proofs.Batch.Messages
import MessageTables.Proofs.Batch.Outputs
import MessageTables.Proofs.Batch.Repetition
import MessageTables.Proofs.Batch.Stopping
import MessageTables.Proofs.Batch.Undoing
import MessageTables.Proofs.CommandLine.Listing
import MessageTables.Proofs.CommandLine.Placement
import MessageTables.Proofs.Generation.Classification
import MessageTables.Proofs.Generation.Failure
import MessageTables.Proofs.Generation.Success
import MessageTables.Proofs.LookupModule.Answers
import MessageTables.Proofs.Table.FirstFault
import MessageTables.Proofs.LookupModule.Heading
import MessageTables.Proofs.FileSystem.Reach
import MessageTables.Proofs.LookupModule.Consistency
import MessageTables.Proofs.LookupModule.Recovery
import MessageTables.Proofs.FileSystem.Courses
import MessageTables.Proofs.FileSystem.DirectoryMaking
import MessageTables.Proofs.FileSystem.Delivery
import MessageTables.Proofs.FileSystem.Delivering
import MessageTables.Proofs.FileSystem.Apart
import MessageTables.Proofs.Generation.Yield
import MessageTables.Proofs.Generation.Independence
import MessageTables.Proofs.Table.Loading
import MessageTables.Proofs.Batch.Accounting
import MessageTables.Proofs.Glob.Found
import MessageTables.Proofs.Batch.Clearance
import MessageTables.Proofs.Table.Concatenation
import MessageTables.Proofs.Dependencies
