import AVBox.Analyzers.AdfBlockMap
import AVBox.Analyzers.AdfChecks
import AVBox.Analyzers.AdfDamage
import AVBox.Analyzers.AdfImages
import AVBox.Analyzers.BootChecksums
import AVBox.Analyzers.Budgets
import AVBox.Analyzers.ChildCaps
import AVBox.Analyzers.Completeness
import AVBox.Analyzers.CompoundWalks
import AVBox.Analyzers.DiskShares
import AVBox.Analyzers.RtfGroups
import AVBox.Analyzers.DiskImageEnds
import AVBox.Analyzers.ElfDynamic
import AVBox.Analyzers.ExecutableSizes
import AVBox.Analyzers.ExternalMembers
import AVBox.Analyzers.Failures
import AVBox.Analyzers.FatImages
import AVBox.Analyzers.FatOrphans
import AVBox.Analyzers.FatOwners
import AVBox.Analyzers.HunkFiles
import AVBox.Analyzers.IsoVolumes
import AVBox.Analyzers.LhaArchives
import AVBox.Analyzers.ListingReads
import AVBox.Analyzers.MemberNames
import AVBox.Analyzers.Members
import AVBox.Analyzers.NestedPartitions
import AVBox.Analyzers.Visits
import AVBox.Analyzers.ObjectGraph
import AVBox.Analyzers.PartitionTables
import AVBox.Analyzers.PeAddresses
import AVBox.Analyzers.RangeReader
import AVBox.Analyzers.RdbChains
import AVBox.Analyzers.StringBounds
import AVBox.Analyzers.StringPlaces
import AVBox.Analyzers.StructuralAgreement
import AVBox.Analyzers.StructuralLimits
import AVBox.Analyzers.StructuralTotal
import AVBox.Analyzers.Unreadable
import AVBox.Analyzers.VbaBounds
import AVBox.Analyzers.Writes
import AVBox.Analyzers.XmlParts
import AVBox.Application.Coverage
import AVBox.Application.Execution
import AVBox.Application.Keys
import AVBox.Application.Outcome
import AVBox.Correlation.Budget
import AVBox.Correlation.Endpoint
import AVBox.Correlation.Providers
import AVBox.Lib.BreaksOff
import AVBox.Lib.Codes
import AVBox.Lib.Threads
import AVBox.Preservation.Acquisition
import AVBox.Preservation.Admission
import AVBox.Protocol.Artifacts
import AVBox.Protocol.Authentication
import AVBox.Protocol.CallParts
import AVBox.Protocol.Concurrency
import AVBox.Protocol.Fingerprints
import AVBox.Protocol.Lives
import AVBox.Protocol.Rejections
import AVBox.Protocol.Restart
import AVBox.Protocol.Results
import AVBox.Protocol.Served
import AVBox.Protocol.Shutdown
import AVBox.Protocol.Submission
import AVBox.Protocol.Threads
import AVBox.Scanners.Adapters
import AVBox.Scanners.SharedAdapter
import AVBox.Registry.Service
