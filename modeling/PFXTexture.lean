import PFXTexture.Library.Machine
import PFXTexture.Library.Retry
import PFXTexture.Library.Disposables
import PFXTexture.Library.Observable
import PFXTexture.Library.SwiftArray
import PFXTexture.Library.CursorPages
import PFXTexture.Library.Traversal
import PFXTexture.Library.Handle
import PFXTexture.Models
import PFXTexture.ModelObjects
import PFXTexture.Networks
import PFXTexture.CellViewModels
import PFXTexture.CellBindings
import PFXTexture.RxViewModel
import PFXTexture.RepositoryViewModel
import PFXTexture.RepositoryViewController
import PFXTexture.DContentsViewModel
import PFXTexture.DContentsNode
import PFXTexture.ExViewController
import PFXTexture.UIView
import PFXTexture.DStickyHeaderNode
import PFXTexture.StringExtensions
import PFXTexture.Proof.DecoratedPage
import PFXTexture.Proof.Response
import PFXTexture.Proof.Defaults
import PFXTexture.Proof.Merge
import PFXTexture.Proof.ViewModelSteps
import PFXTexture.Proof.Loads
import PFXTexture.Proof.Paging
import PFXTexture.Proof.SceneSteps
import PFXTexture.Proof.Rows
import PFXTexture.Proof.BatchFetch
import PFXTexture.Proof.NodeBlocks
import PFXTexture.Proof.SectionSteps
import PFXTexture.Proof.Sections
import PFXTexture.Proof.Refresh
import PFXTexture.Proof.Teardown
import PFXTexture.Proof.Bindings
import PFXTexture.Proof.Cadence
import PFXTexture.Proof.Collection
import PFXTexture.Proof.ExNodeBlocks
import PFXTexture.Proof.Menu
import PFXTexture.Proof.MenuSelection
import PFXTexture.Proof.MenuIndices
import PFXTexture.Proof.Reconfigure
import PFXTexture.Proof.Underlines
import PFXTexture.Proof.Validators
import PFXTexture.Library.Relay
import PFXTexture.ASTableView
import PFXTexture.Proof.Emissions
import PFXTexture.Proof.TableSteps
import PFXTexture.Proof.BatchOnce
import PFXTexture.Proof.Service
import PFXTexture.Proof.TableRows
import PFXTexture.Proof.PendingCells
import PFXTexture.Proof.ListScene
import PFXTexture.Proof.SectionCells
import PFXTexture.DCellNode
import PFXTexture.Proof.SectionPages
import PFXTexture.ExCellNode
import PFXTexture.DViewController
import PFXTexture.Proof.DynamicScreen
import PFXTexture.Proof.DynamicRuns
import PFXTexture.Library.Broadcast
import PFXTexture.RepositoryCellNodes
import PFXTexture.Proof.RowNodes
import PFXTexture.Proof.Debounce
import PFXTexture.Proof.ItemCalls
import PFXTexture.Proof.ListRequests
import PFXTexture.Proof.DynamicSchedule
